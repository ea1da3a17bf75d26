import DriveLog.Proofs.RangeMap
import DriveLog.Weather.Cache
set_option autoImplicit false

namespace DriveLog

def Bucket.label (b : Bucket) : String × Coordinate := (b.key, b.anchor)

namespace Weather
variable {settings : WeatherSettings} {c : Coordinate} {buckets others : List Bucket} {b : Bucket}
  {radius i : Nat} {reports filled : RangeMap WeatherReport}

/-- The bucket is near the place or has its text. -/
def Serves (settings : WeatherSettings) (c : Coordinate) (b : Bucket) : Prop :=
  isNear settings.radius (Distance.miles c b.anchor) = true ∨ b.key = c.text

theorem mem_nearBuckets {d : Nat × Binary64} :
    d ∈ nearBuckets radius c buckets ↔
      ∃ b, buckets[d.1]? = some b ∧ Distance.miles c b.anchor = d.2 ∧ isNear radius d.2 = true := by
  obtain ⟨i, distance⟩ := d
  simp only [nearBuckets, List.mem_filter, List.mem_map, List.mem_zipIdx_iff_getElem?,
    Prod.exists, Prod.mk.injEq]
  constructor
  · rintro ⟨⟨b, _, hb, rfl, hdistance⟩, hnear⟩
    exact ⟨b, hb, hdistance, hnear⟩
  · rintro ⟨b, hb, hdistance, hnear⟩
    exact ⟨⟨b, i, hb, rfl, hdistance⟩, hnear⟩

theorem mem_of_nearestOf {d : Nat × Binary64} {l : List (Nat × Binary64)}
    (h : nearestOf l = some d) : d ∈ l := by
  have hfold : ∀ (l : List (Nat × Binary64)) (best : Nat × Binary64),
      l.foldl (fun best e => if e.2.less best.2 then e else best) best ∈ best :: l := by
    intro l
    induction l with
    | nil => simp
    | cons e rest ih =>
      intro best
      rw [List.foldl_cons]
      split
      · exact List.mem_cons_of_mem _ (ih e)
      · rcases List.mem_cons.mp (ih best) with hbest | hrest
        · rw [hbest]
          exact List.mem_cons_self
        · exact List.mem_cons_of_mem _ (List.mem_cons_of_mem _ hrest)
  cases l with
  | nil => simp [nearestOf] at h
  | cons e rest =>
    rw [nearestOf, Option.some.injEq] at h
    exact h ▸ hfold rest e

theorem bucketFor?_of_near (h : nearBuckets settings.radius c buckets ≠ []) :
    ∃ d ∈ nearBuckets settings.radius c buckets, bucketFor? settings c buckets = some d.1 := by
  unfold bucketFor?
  cases hnear : nearBuckets settings.radius c buckets with
  | nil => exact absurd hnear h
  | cons e rest =>
    cases settings.proximity with
    | first => exact ⟨e, by simp, rfl⟩
    | nearest => exact ⟨_, mem_of_nearestOf rfl, rfl⟩

theorem bucketFor?_of_not_near (h : nearBuckets settings.radius c buckets = []) :
    bucketFor? settings c buckets = buckets.findIdx? fun b => b.key = c.text := by
  unfold bucketFor?
  rw [h]
  cases settings.proximity <;> rfl

theorem bucketFor?_nil (settings : WeatherSettings) (c : Coordinate) :
    bucketFor? settings c [] = none := bucketFor?_of_not_near rfl

theorem map_head?_nearBuckets (radius : Nat) (c : Coordinate) (buckets : List Bucket) :
    (nearBuckets radius c buckets).head?.map Prod.fst =
      buckets.findIdx? fun b => isNear radius (Distance.miles c b.anchor) := by
  rw [nearBuckets, List.head?_filter, List.find?_map, Option.map_map,
    List.findIdx?_eq_fst_find?_zipIdx]
  rfl

/-- The oldest near bucket serves a place, or else the one of its text. -/
theorem bucketFor?_first (hfirst : settings.proximity = .first) :
    bucketFor? settings c buckets =
      (buckets.findIdx? fun b => isNear settings.radius (Distance.miles c b.anchor)).or
        (buckets.findIdx? fun b => b.key = c.text) := by
  rw [← map_head?_nearBuckets, bucketFor?, hfirst]
  cases (nearBuckets settings.radius c buckets).head? <;> rfl

theorem serves_of_bucketFor? (h : bucketFor? settings c buckets = some i) :
    ∃ b, buckets[i]? = some b ∧ Serves settings c b := by
  by_cases hnear : nearBuckets settings.radius c buckets = []
  · rw [bucketFor?_of_not_near hnear, List.findIdx?_eq_some_iff_getElem] at h
    obtain ⟨hi, hkey, -⟩ := h
    exact ⟨buckets[i], List.getElem?_eq_getElem hi, .inr (of_decide_eq_true hkey)⟩
  · obtain ⟨d, hd, hsome⟩ := bucketFor?_of_near hnear
    obtain rfl : d.1 = i := Option.some.inj (hsome.symm.trans h)
    obtain ⟨b, hb, hdistance, hisNear⟩ := mem_nearBuckets.mp hd
    exact ⟨b, hb, .inl (hdistance ▸ hisNear)⟩

theorem not_serves_of_bucketFor? (h : bucketFor? settings c buckets = none) (hb : b ∈ buckets) :
    ¬ Serves settings c b := by
  have hnear : nearBuckets settings.radius c buckets = [] := by
    by_cases hnear : nearBuckets settings.radius c buckets = []
    · exact hnear
    · obtain ⟨d, -, hsome⟩ := bucketFor?_of_near hnear
      rw [hsome] at h
      cases h
  rintro (hisNear | hkey)
  · obtain ⟨i, hi⟩ := List.getElem?_of_mem hb
    have hmem : (i, Distance.miles c b.anchor) ∈ nearBuckets settings.radius c buckets :=
      mem_nearBuckets.mpr ⟨b, hi, rfl, hisNear⟩
    rw [hnear] at hmem
    cases hmem
  · rw [bucketFor?_of_not_near hnear, List.findIdx?_eq_none_iff] at h
    exact of_decide_eq_false (h b hb) hkey

theorem bucketFor?_congr (h : buckets.map Bucket.label = others.map Bucket.label) :
    bucketFor? settings c buckets = bucketFor? settings c others := by
  have hnear : ∀ l : List Bucket, nearBuckets settings.radius c l =
      ((l.map Bucket.label).zipIdx.map fun d => (d.2, Distance.miles c d.1.2)).filter
        fun d => isNear settings.radius d.2 := by
    intro l
    rw [List.zipIdx_map, List.map_map]
    rfl
  have hkey : ∀ l : List Bucket, (l.findIdx? fun b => decide (b.key = c.text)) =
      (l.map Bucket.label).findIdx? fun d => decide (d.1 = c.text) := by
    intro l
    rw [List.findIdx?_map]
    rfl
  unfold bucketFor?
  simp only [hnear, hkey, h]

theorem bucketFor?_concat (hnone : ∀ other ∈ buckets, ¬ Serves settings c other)
    (hb : Serves settings c b) : bucketFor? settings c (buckets ++ [b]) = some buckets.length := by
  cases hplace : bucketFor? settings c (buckets ++ [b]) with
  | none => exact absurd hb (not_serves_of_bucketFor? hplace (by simp))
  | some i =>
    obtain ⟨other, hi, hserves⟩ := serves_of_bucketFor? hplace
    by_cases hlt : i < buckets.length
    · rw [List.getElem?_append_left hlt] at hi
      exact absurd hserves (hnone other (List.mem_of_getElem? hi))
    · have hlength : i < (buckets ++ [b]).length := (List.getElem?_eq_some_iff.mp hi).1
      rw [List.length_append, List.length_singleton] at hlength
      rw [show i = buckets.length by omega]

theorem getElem?_modify_reports (h : buckets[i]? = some b) :
    (buckets.modify i fun b => { b with reports })[i]? = some { b with reports } := by
  rw [List.getElem?_modify_eq, h]
  rfl

theorem map_label_modify (buckets : List Bucket) (i : Nat) (reports : RangeMap WeatherReport) :
    (buckets.modify i fun b => { b with reports }).map Bucket.label = buckets.map Bucket.label := by
  refine List.ext_getElem? fun j => ?_
  rw [List.getElem?_map, List.getElem?_map, List.getElem?_modify]
  cases buckets[j]? with
  | none => rfl
  | some b => by_cases hj : i = j <;> simp [hj, Bucket.label]

theorem exists_of_store (settings : WeatherSettings) (c : Coordinate) (buckets : List Bucket)
    (filled : RangeMap WeatherReport) :
    ∃ i, bucketFor? settings c (store (bucketFor? settings c buckets) c filled buckets) = some i ∧
      reportsAt (some i) (store (bucketFor? settings c buckets) c filled buckets) = filled := by
  cases hplace : bucketFor? settings c buckets with
  | none =>
    refine ⟨buckets.length, ?_, by simp [store, reportsAt]⟩
    exact bucketFor?_concat (fun other hother => not_serves_of_bucketFor? hplace hother) (.inr rfl)
  | some i =>
    obtain ⟨b, hb, -⟩ := serves_of_bucketFor? hplace
    refine ⟨i, ?_, ?_⟩
    · rw [store, bucketFor?_congr (map_label_modify buckets i filled), hplace]
    · simp only [store, reportsAt, Option.bind_some, getElem?_modify_reports hb, Option.map_some,
        Option.getD_some]

theorem of_getElem?_modify {b' : Bucket} {j : Nat}
    (h : (buckets.modify i fun b => { b with reports := filled })[j]? = some b') :
    buckets[j]? = some b' ∨ i = j ∧ b'.reports = filled := by
  rw [List.getElem?_modify] at h
  obtain ⟨b, hb, hb'⟩ := Option.map_eq_some_iff.mp h
  by_cases hj : i = j
  · rw [if_pos hj] at hb'
    exact .inr ⟨hj, hb' ▸ rfl⟩
  · rw [if_neg hj] at hb'
    exact .inl (hb' ▸ hb)

theorem of_getElem?_store
    (h : (store (bucketFor? settings c buckets) c filled buckets)[i]? = some b) :
    buckets[i]? = some b ∨
      bucketFor? settings c (store (bucketFor? settings c buckets) c filled buckets) = some i ∧
      b.reports = filled := by
  cases hplace : bucketFor? settings c buckets with
  | none =>
    rw [hplace, store] at h
    by_cases hlt : i < buckets.length
    · rw [List.getElem?_append_left hlt] at h
      exact .inl h
    · rw [List.getElem?_append_right (by omega), List.getElem?_singleton] at h
      split at h
      · have hi : i = buckets.length := by omega
        have hnone : ∀ b ∈ buckets, ¬ Serves settings c b :=
          fun b hb => not_serves_of_bucketFor? hplace hb
        exact .inr ⟨hi ▸ bucketFor?_concat hnone (.inr rfl), Option.some.inj h ▸ rfl⟩
      · cases h
  | some j =>
    rw [hplace] at h
    refine (of_getElem?_modify h).imp_right fun ⟨hj, hreports⟩ => ⟨?_, hreports⟩
    exact (bucketFor?_congr (map_label_modify buckets j filled)).trans (hj ▸ hplace)

end Weather

end DriveLog
