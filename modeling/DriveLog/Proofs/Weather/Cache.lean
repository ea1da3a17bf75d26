import DriveLog.Proofs.Weather.Round
set_option autoImplicit false

namespace DriveLog
namespace Weather

/-- Buckets are told apart by the texts of their anchors, no later one was opened near an earlier one,
and the ranges of each are in order. -/
structure Lawful (settings : WeatherSettings) (s : WeatherCache) : Prop where
  key_eq : ∀ b ∈ s.buckets, b.key = b.anchor.text
  nodup : (s.buckets.map Bucket.key).Nodup
  apart : s.buckets.Pairwise fun old new =>
    isNear settings.radius (Distance.miles new.anchor old.anchor) = false
  ordered : ∀ b ∈ s.buckets, b.reports.Ordered

/-- Each bucket is still in its place, with its key, its anchor and all of its ranges. -/
def Extends (s t : WeatherCache) : Prop :=
  ∀ (i : Nat) (b : Bucket), s.buckets[i]? = some b →
    ∃ b', t.buckets[i]? = some b' ∧ b'.label = b.label ∧
      ∀ r ∈ b.reports.ranges, r ∈ b'.reports.ranges

structure Learned (service : WeatherService) (settings : WeatherSettings) (time : Int)
    (c : Coordinate) (s t : WeatherCache) : Prop where
  calls_le : s.calls ≤ t.calls
  lawful : Lawful settings s → Lawful settings t
  kept : Extends s t
  place : ∀ i, bucketFor? settings c s.buckets = some i → bucketFor? settings c t.buckets = some i
  entries : ∀ (i : Nat) (b : Bucket), t.buckets[i]? = some b → ∀ e ∈ b.reports.entries,
    (∃ b', s.buckets[i]? = some b' ∧ e ∈ b'.reports.entries) ∨
      bucketFor? settings c t.buckets = some i ∧ e.1 = ⟨e.2.start, e.2.stop⟩ ∧
      ∃ n reports, s.calls ≤ n ∧ n < t.calls ∧ service n time c = .ok reports ∧ e.2 ∈ reports

variable {service : WeatherService} {settings : WeatherSettings} {time : Int} {c : Coordinate}
  {s t u : WeatherCache} {buckets : List Bucket} {filled : RangeMap WeatherReport} {b : Bucket}
  {i n : Nat}

theorem Extends.refl (s : WeatherCache) : Extends s s := fun _ b hb => ⟨b, hb, rfl, fun _ h => h⟩

theorem Extends.trans (h : Extends s t) (h' : Extends t u) : Extends s u := by
  intro i b hb
  obtain ⟨b', hb', hlabel, hranges⟩ := h i b hb
  obtain ⟨b'', hb'', hlabel', hranges'⟩ := h' i b' hb'
  exact ⟨b'', hb'', hlabel'.trans hlabel, fun r hr => hranges' r (hranges r hr)⟩

theorem lawful_empty (settings : WeatherSettings) : Lawful settings {} :=
  ⟨by simp, .nil, .nil, by simp⟩

/-- All but the ranges depends on keys and anchors only. -/
theorem Lawful.congr (h : Lawful settings s)
    (hlabels : t.buckets.map Bucket.label = s.buckets.map Bucket.label)
    (hordered : ∀ b ∈ t.buckets, b.reports.Ordered) : Lawful settings t where
  ordered := hordered
  key_eq b hb := by
    have hmem : b.label ∈ s.buckets.map Bucket.label := hlabels ▸ List.mem_map_of_mem hb
    obtain ⟨other, hother, hlabel⟩ := List.mem_map.mp hmem
    obtain ⟨hkey, hanchor⟩ := Prod.mk.inj hlabel
    rw [← hkey, ← hanchor]
    exact h.key_eq other hother
  nodup := by
    have hkeys : ∀ l : List Bucket, l.map Bucket.key = (l.map Bucket.label).map Prod.fst := by
      simp [Bucket.label]
    rw [hkeys, hlabels, ← hkeys]
    exact h.nodup
  apart := by
    have hanchors : ∀ l : List Bucket,
        (l.Pairwise fun old new =>
          isNear settings.radius (Distance.miles new.anchor old.anchor) = false) ↔
        (l.map Bucket.label).Pairwise fun old new =>
          isNear settings.radius (Distance.miles new.2 old.2) = false := by
      simp [List.pairwise_map, Bucket.label]
    rw [hanchors, hlabels, ← hanchors]
    exact h.apart

theorem Lawful.open (h : Lawful settings s) {new : Bucket} (hkey : new.key = new.anchor.text)
    (hfar : ∀ b ∈ s.buckets, ¬ Serves settings new.anchor b) (hnew : new.reports.Ordered) :
    Lawful settings ⟨n, s.buckets ++ [new]⟩ where
  key_eq := by simpa [or_imp, forall_and] using ⟨h.key_eq, hkey⟩
  ordered := by simpa [or_imp, forall_and] using ⟨h.ordered, hnew⟩
  nodup := by
    rw [List.map_append, List.nodup_append]
    refine ⟨h.nodup, by simp, fun key hold other hother heq => ?_⟩
    obtain ⟨b, hb, rfl⟩ := List.mem_map.mp hold
    rw [List.map_singleton, List.mem_singleton] at hother
    exact hfar b hb (.inr (heq.trans (hother.trans hkey)))
  apart := by
    refine List.pairwise_append.mpr ⟨h.apart, List.pairwise_singleton _ _, fun b hb other ho => ?_⟩
    rw [List.mem_singleton.mp ho]
    exact Bool.eq_false_iff.mpr fun hnear => hfar b hb (.inl hnear)

theorem serving_eq (h : bucketFor? settings c s.buckets = some i) (hb : s.buckets[i]? = some b) :
    serving settings c s = b.reports := by
  unfold serving reportsAt
  rw [h, Option.bind_some, hb]
  rfl

theorem serving_eq_empty (h : bucketFor? settings c s.buckets = none) :
    serving settings c s = .empty := by
  unfold serving reportsAt
  rw [h]
  rfl

theorem Lawful.serving (h : Lawful settings s) (c : Coordinate) : (serving settings c s).Ordered := by
  cases hplace : bucketFor? settings c s.buckets with
  | none => exact serving_eq_empty hplace ▸ RangeMap.ordered_empty
  | some i =>
    obtain ⟨b, hb, -⟩ := serves_of_bucketFor? hplace
    exact serving_eq hplace hb ▸ h.ordered b (List.mem_of_getElem? hb)

namespace Round

theorem lawful (h : Round service settings time c s t) (hs : Lawful settings s) :
    Lawful settings t := by
  cases h with
  | @stored reports filled missed answered told added =>
    have hfilled : filled.Ordered := (hs.serving c).insertAll added
    cases hplace : bucketFor? settings c s.buckets with
    | none => exact hs.open rfl (fun b hb => not_serves_of_bucketFor? hplace hb) hfilled
    | some i =>
      refine hs.congr (map_label_modify s.buckets i filled) fun b hb => ?_
      obtain ⟨j, hj⟩ := List.getElem?_of_mem hb
      rcases of_getElem?_modify hj with hold | ⟨-, hreports⟩
      · exact hs.ordered b (List.mem_of_getElem? hold)
      · exact hreports ▸ hfilled

theorem kept (h : Round service settings time c s t) : Extends s t := by
  cases h with
  | @stored reports filled missed answered told added =>
    intro j b hb
    have hgrown := RangeMap.grown_of_insertAll added
    cases hplace : bucketFor? settings c s.buckets with
    | none =>
      have hlt : j < s.buckets.length := (List.getElem?_eq_some_iff.mp hb).1
      exact ⟨b, (List.getElem?_append_left hlt).trans hb, rfl, fun _ h => h⟩
    | some i =>
      by_cases hj : i = j
      · subst hj
        refine ⟨_, getElem?_modify_reports hb, rfl, fun r hr => hgrown.kept r ?_⟩
        rwa [serving_eq hplace hb]
      · exact ⟨b, (List.getElem?_modify_ne _ _ hj).trans hb, rfl, fun _ h => h⟩

theorem place (h : Round service settings time c s t)
    (hplace : bucketFor? settings c s.buckets = some i) :
    bucketFor? settings c t.buckets = some i := by
  cases h with
  | @stored reports filled missed answered told added =>
    rw [hplace]
    exact (bucketFor?_congr (map_label_modify s.buckets i filled)).trans hplace

theorem exists_of_known (h : Round service settings time c s t)
    (hplace : bucketFor? settings c t.buckets = some i) {e : Range × WeatherReport}
    (he : e ∈ (serving settings c s).entries) :
    ∃ b, s.buckets[i]? = some b ∧ e ∈ b.reports.entries := by
  cases hbefore : bucketFor? settings c s.buckets with
  | none =>
    rw [serving_eq_empty hbefore] at he
    cases he
  | some j =>
    obtain rfl : j = i := Option.some.inj ((h.place hbefore).symm.trans hplace)
    obtain ⟨b, hb, -⟩ := serves_of_bucketFor? hbefore
    exact ⟨b, hb, serving_eq hbefore hb ▸ he⟩

theorem entries (h : Round service settings time c s t) (hb : t.buckets[i]? = some b)
    {e : Range × WeatherReport} (he : e ∈ b.reports.entries) :
    (∃ b', s.buckets[i]? = some b' ∧ e ∈ b'.reports.entries) ∨
      bucketFor? settings c t.buckets = some i ∧ e.1 = ⟨e.2.start, e.2.stop⟩ ∧
      ∃ reports, service s.calls time c = .ok reports ∧ e.2 ∈ reports := by
  have hknown := h.exists_of_known (i := i) (e := e)
  cases h with
  | @stored reports filled missed answered told added =>
    rcases of_getElem?_store hb with hold | ⟨hplace, hreports⟩
    · exact .inl ⟨b, hold, he⟩
    · rcases (RangeMap.grown_of_insertAll added).mem e (hreports ▸ he) with hnew | hold
      · obtain ⟨r, hr, rfl⟩ := List.mem_map.mp hnew
        exact .inr ⟨hplace, rfl, reports, answered, mem_sortBy.mp hr⟩
      · exact .inl (hknown hplace hold)

theorem learned (h : Round service settings time c s t) : Learned service settings time c s t where
  calls_le := by
    obtain ⟨hcalls, -⟩ := h.exists_answer
    omega
  lawful := h.lawful
  kept := h.kept
  place _ := h.place
  entries i b hb e he := by
    obtain ⟨hcalls, -⟩ := h.exists_answer
    refine (h.entries hb he).imp_right fun ⟨hplace, hkey, reports, hanswer, hmem⟩ => ?_
    exact ⟨hplace, hkey, s.calls, reports, by omega, by omega, hanswer, hmem⟩

end Round

namespace Learned

theorem refl (service : WeatherService) (settings : WeatherSettings) (time : Int) (c : Coordinate)
    (s : WeatherCache) : Learned service settings time c s s :=
  ⟨Nat.le_refl _, id, .refl s, fun _ h => h, fun _ b hb _ he => .inl ⟨b, hb, he⟩⟩

theorem trans (h : Learned service settings time c s t) (h' : Learned service settings time c t u) :
    Learned service settings time c s u where
  calls_le := Nat.le_trans h.calls_le h'.calls_le
  lawful hs := h'.lawful (h.lawful hs)
  kept := h.kept.trans h'.kept
  place i hi := h'.place i (h.place i hi)
  entries i b hb e he := by
    have hle := h.calls_le
    have hle' := h'.calls_le
    rcases h'.entries i b hb e he with ⟨b', hb', he'⟩ | ⟨hplace, hkey, n, reports, hlo, hn⟩
    · refine (h.entries i b' hb' e he').imp_right fun ⟨hplace, hkey, n, reports, hlo, hhi, hn⟩ => ?_
      exact ⟨h'.place i hplace, hkey, n, reports, hlo, by omega, hn⟩
    · exact .inr ⟨hplace, hkey, n, reports, by omega, hn⟩

theorem ask (h : Learned service settings time c s t) :
    Learned service settings time c s { t with calls := t.calls + 1 } where
  calls_le := Nat.le_succ_of_le h.calls_le
  lawful hs := let ht := h.lawful hs; ⟨ht.key_eq, ht.nodup, ht.apart, ht.ordered⟩
  kept := h.kept
  place := h.place
  entries i b hb e he := by
    refine (h.entries i b hb e he).imp_right fun ⟨hplace, hkey, n, reports, hlo, hhi, hn⟩ => ?_
    exact ⟨hplace, hkey, n, reports, hlo, Nat.lt_succ_of_lt hhi, hn⟩

end Learned

theorem Rounds.learned (h : Rounds service settings time c n s t) :
    Learned service settings time c s t := by
  induction h with
  | start s => exact .refl service settings time c s
  | cons hround hrest ih => exact hround.learned.trans ih

theorem ends_lookup (service : WeatherService) (settings : WeatherSettings) (time : Int)
    (c : Coordinate) (s : WeatherCache) :
    Ends (lookup service settings time c) s
      (fun r t => Learned service settings time c s t ∧
        ∃ found, (serving settings c t).get? time = some found ∧ r = { found with coordinate := c })
      (fun _ t => Learned service settings time c s t) := by
  unfold lookup
  split
  · refine (ends_lookupWithin service settings time c settings.maxCalls s).mono
      (fun r t ht => ?_) fun e t ht => ?_
    · obtain ⟨k, -, hrounds, hfound⟩ := ht
      exact ⟨hrounds.learned, hfound⟩
    · rcases ht with ⟨-, hrounds⟩ | ⟨k, -, u, hrounds, -, rfl⟩
      · exact hrounds.learned
      · exact hrounds.learned.ask
  · exact Ends.throw (.refl service settings time c s)

structure Turn where
  time : Int
  coordinate : Coordinate
  before : WeatherCache
  answer : Except WeatherError WeatherReport
  after : WeatherCache

def turn (service : WeatherService) (settings : WeatherSettings) (time : Int) (c : Coordinate)
    (s : WeatherCache) : Turn :=
  match lookup service settings time c s with
  | .ok r t => ⟨time, c, s, .ok r, t⟩
  | .error e t => ⟨time, c, s, .error e, t⟩

def turns (service : WeatherService) (settings : WeatherSettings) :
    List (Int × Coordinate) → WeatherCache → List Turn
  | [], _ => []
  | (time, c) :: rest, s =>
    turn service settings time c s :: turns service settings rest (turn service settings time c s).after

/-- The service gave the report in one of the turns, for a query that the bucket at `i` served. -/
def Heard (service : WeatherService) (settings : WeatherSettings) (history : List Turn) (i : Nat)
    (r : WeatherReport) : Prop :=
  ∃ v ∈ history, bucketFor? settings v.coordinate v.after.buckets = some i ∧
    ∃ n reports, v.before.calls ≤ n ∧ n < v.after.calls ∧
      service n v.time v.coordinate = .ok reports ∧ r ∈ reports

/-- The answer of the last of some turns is a report about the moment that was asked for, which the
service once gave for the bucket that serves the place. -/
structure Backed (service : WeatherService) (settings : WeatherSettings) (history : List Turn)
    (u : Turn) (r : WeatherReport) : Prop where
  start_le : r.start ≤ u.time
  lt_stop : u.time < r.stop
  coordinate : r.coordinate = u.coordinate
  source : ∃ i b found, bucketFor? settings u.coordinate u.after.buckets = some i ∧
    u.after.buckets[i]? = some b ∧ Serves settings u.coordinate b ∧
    Heard service settings history i found ∧ r = { found with coordinate := u.coordinate }

structure Reached (service : WeatherService) (settings : WeatherSettings) (history : List Turn)
    (s : WeatherCache) : Prop where
  lawful : Lawful settings s
  heard : ∀ (i : Nat) (b : Bucket), s.buckets[i]? = some b → ∀ e ∈ b.reports.entries,
    e.1 = ⟨e.2.start, e.2.stop⟩ ∧ Heard service settings history i e.2

structure Turn.Sound (service : WeatherService) (settings : WeatherSettings) (u : Turn) : Prop where
  learned : Learned service settings u.time u.coordinate u.before u.after
  found : ∀ r, u.answer = .ok r →
    ∃ found, (serving settings u.coordinate u.after).get? u.time = some found ∧
      r = { found with coordinate := u.coordinate }

variable {history : List Turn} {v : Turn} {r : WeatherReport}

theorem before_turn (service : WeatherService) (settings : WeatherSettings) (time : Int)
    (c : Coordinate) (s : WeatherCache) : (turn service settings time c s).before = s := by
  unfold turn
  split <;> rfl

theorem sound_turn (service : WeatherService) (settings : WeatherSettings) (time : Int)
    (c : Coordinate) (s : WeatherCache) : (turn service settings time c s).Sound service settings := by
  have hends := ends_lookup service settings time c s
  unfold turn
  cases hlookup : lookup service settings time c s with
  | ok r t =>
    obtain ⟨hlearned, hfound⟩ := hends.of_eq_ok hlookup
    refine ⟨hlearned, fun r' hr => ?_⟩
    cases hr
    exact hfound
  | error e t =>
    refine ⟨hends.of_eq_error hlookup, fun r hr => ?_⟩
    cases hr

theorem Heard.concat (h : Heard service settings history i r) (v : Turn) :
    Heard service settings (history ++ [v]) i r := by
  obtain ⟨u, hu, hheard⟩ := h
  exact ⟨u, List.mem_append_left _ hu, hheard⟩

namespace Reached

theorem concat (h : Reached service settings history v.before) (hv : v.Sound service settings) :
    Reached service settings (history ++ [v]) v.after := by
  refine ⟨hv.learned.lawful h.lawful, fun i b hb e he => ?_⟩
  rcases hv.learned.entries i b hb e he with ⟨b', hb', he'⟩ | ⟨hplace, hkey, hanswer⟩
  · obtain ⟨hkey, hheard⟩ := h.heard i b' hb' e he'
    exact ⟨hkey, hheard.concat v⟩
  · exact ⟨hkey, v, by simp, hplace, hanswer⟩

theorem backed (h : Reached service settings history v.after) (hv : v.Sound service settings)
    (hr : v.answer = .ok r) : Backed service settings history v r := by
  obtain ⟨found, hget, rfl⟩ := hv.found r hr
  obtain ⟨e, he, hcontains, rfl⟩ := RangeMap.exists_of_get? hget
  cases hplace : bucketFor? settings v.coordinate v.after.buckets with
  | none =>
    rw [serving_eq_empty hplace] at he
    cases he
  | some i =>
    obtain ⟨b, hb, hserves⟩ := serves_of_bucketFor? hplace
    rw [serving_eq hplace hb] at he
    obtain ⟨hkey, hheard⟩ := h.heard i b hb e he
    rw [hkey] at hcontains
    exact ⟨hcontains.1, hcontains.2, rfl, i, b, e.2, hplace, hb, hserves, hheard, rfl⟩

end Reached

/-- Turns keep the cache lawful, extend it, and answer with reports that were heard. -/
structure Honest (service : WeatherService) (settings : WeatherSettings) (history : List Turn)
    (s : WeatherCache) (l : List Turn) : Prop where
  lawful : ∀ u ∈ l, Lawful settings u.after ∧ Extends s u.after
  kept : l.Pairwise fun u v => Extends u.after v.after
  backed : ∀ past u later r, l = past ++ u :: later → u.answer = .ok r →
    Backed service settings (history ++ past ++ [u]) u r

theorem honest_turns (queries : List (Int × Coordinate))
    (h : Reached service settings history s) :
    Honest service settings history s (turns service settings queries s) := by
  -- by induction on the queries: what the first turn has added to the history backs the others
  induction queries generalizing history s with
  | nil => exact ⟨by simp [turns], .nil, by simp [turns]⟩
  | cons query rest ih =>
    obtain ⟨time, c⟩ := query
    have hsound := sound_turn service settings time c s
    have hbefore := before_turn service settings time c s
    unfold turns
    generalize turn service settings time c s = v at hsound hbefore
    subst hbefore
    have hreached := h.concat hsound
    obtain ⟨hlawful, hkept, hbacked⟩ := ih hreached
    refine ⟨?_, List.pairwise_cons.mpr ⟨fun u hu => (hlawful u hu).2, hkept⟩, ?_⟩
    · intro u hu
      rcases List.mem_cons.mp hu with rfl | hu
      · exact ⟨hreached.lawful, hsound.learned.kept⟩
      · exact ⟨(hlawful u hu).1, hsound.learned.kept.trans (hlawful u hu).2⟩
    · intro past u later r hsplit hanswer
      cases past with
      | nil =>
        obtain ⟨rfl, -⟩ := List.cons.inj hsplit
        simpa using hreached.backed hsound hanswer
      | cons first past =>
        obtain ⟨rfl, hrest⟩ := List.cons.inj hsplit
        simpa using hbacked past u later r hrest hanswer

/-- Whatever is looked up in a new cache, with success or not: buckets are told apart by the texts of
their anchors, none was opened near an earlier one, and the ranges of each are in order; buckets stay
where they are and as they are, and no range is lost. An answer is a report about the moment that was
asked for, carries the place that was asked for and is otherwise what the service gave, in this turn
or an earlier one, for a query of the bucket that serves the place. -/
theorem lookups_honest (service : WeatherService) (settings : WeatherSettings)
    (queries : List (Int × Coordinate)) :
    (∀ u ∈ turns service settings queries {}, Lawful settings u.after) ∧
      (turns service settings queries {}).Pairwise (fun u v => Extends u.after v.after) ∧
      ∀ past u later r, turns service settings queries {} = past ++ u :: later →
        u.answer = .ok r → Backed service settings (past ++ [u]) u r := by
  have hstart : Reached service settings [] {} := ⟨lawful_empty settings, by simp⟩
  obtain ⟨hlawful, hkept, hbacked⟩ := honest_turns queries hstart
  exact ⟨fun u hu => (hlawful u hu).1, hkept, hbacked⟩

end Weather

end DriveLog
