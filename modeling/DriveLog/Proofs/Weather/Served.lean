import DriveLog.Proofs.Weather.Cache
set_option autoImplicit false

namespace DriveLog
namespace Weather
variable {service : WeatherService} {settings : WeatherSettings} {time : Int} {c : Coordinate}
  {s t : WeatherCache} {history : List Turn} {range : Range}

def NearPlace (settings : WeatherSettings) (c : Coordinate) (s : WeatherCache) (i : Nat) : Prop :=
  bucketFor? settings c s.buckets = some i ∧
    ∃ b, s.buckets[i]? = some b ∧ isNear settings.radius (Distance.miles c b.anchor) = true

theorem nearPlace_iff (hfirst : settings.proximity = .first) {i : Nat} :
    NearPlace settings c s i ↔
      (s.buckets.findIdx? fun b => isNear settings.radius (Distance.miles c b.anchor)) = some i := by
  unfold NearPlace
  rw [bucketFor?_first hfirst]
  constructor
  · rintro ⟨hplace, b, hb, hnear⟩
    cases hfind : s.buckets.findIdx? fun b => isNear settings.radius (Distance.miles c b.anchor) with
    | none =>
      rw [List.findIdx?_eq_none_iff] at hfind
      rw [hfind b (List.mem_of_getElem? hb)] at hnear
      cases hnear
    | some j =>
      rw [hfind] at hplace
      exact hplace
  · intro hfind
    obtain ⟨hi, hnear, -⟩ := List.findIdx?_eq_some_iff_getElem.mp hfind
    refine ⟨by rw [hfind]; rfl, s.buckets[i], List.getElem?_eq_getElem hi, hnear⟩

theorem Extends.nearPlace (h : Extends s t) (hfirst : settings.proximity = .first) {i : Nat}
    (hi : NearPlace settings c s i) : NearPlace settings c t i := by
  rw [nearPlace_iff hfirst, List.findIdx?_eq_some_iff_getElem] at hi ⊢
  obtain ⟨hlt, hnear, hbefore⟩ := hi
  have hsame : ∀ (j : Nat) (hj : j < s.buckets.length), ∃ hj' : j < t.buckets.length,
      t.buckets[j].anchor = s.buckets[j].anchor := by
    intro j hj
    obtain ⟨b, hb, hlabel, -⟩ := h j s.buckets[j] (List.getElem?_eq_getElem hj)
    obtain ⟨hj', rfl⟩ := List.getElem?_eq_some_iff.mp hb
    exact ⟨hj', congrArg Prod.snd hlabel⟩
  obtain ⟨hlt', hanchor⟩ := hsame i hlt
  refine ⟨hlt', by rwa [hanchor], fun j hj => ?_⟩
  obtain ⟨hj', hanchor'⟩ := hsame j (Nat.lt_trans hj hlt)
  rw [hanchor']
  exact hbefore j hj

def HoldsNear (settings : WeatherSettings) (c : Coordinate) (range : Range) (s : WeatherCache) :
    Prop :=
  ∃ i, NearPlace settings c s i ∧ range ∈ (serving settings c s).ranges

theorem Extends.holdsNear (h : Extends s t) (hfirst : settings.proximity = .first)
    (hs : HoldsNear settings c range s) : HoldsNear settings c range t := by
  obtain ⟨i, hi, hrange⟩ := hs
  have hi' := h.nearPlace hfirst hi
  obtain ⟨hplace, b, hb, -⟩ := hi
  rw [serving_eq hplace hb] at hrange
  obtain ⟨b', hb', -, hranges⟩ := h i b hb
  refine ⟨i, hi', ?_⟩
  rw [serving_eq hi'.1 hb']
  exact hranges range hrange

theorem Reached.entry_eq (h : Reached service settings history s) {e : Range × WeatherReport}
    (he : e ∈ (serving settings c s).entries) : e.1 = ⟨e.2.start, e.2.stop⟩ := by
  cases hplace : bucketFor? settings c s.buckets with
  | none =>
    rw [serving_eq_empty hplace] at he
    cases he
  | some i =>
    obtain ⟨b, hb, -⟩ := serves_of_bucketFor? hplace
    rw [serving_eq hplace hb] at he
    exact (h.heard i b hb e he).1

/-- The answer of a range that is held does not depend on the service. -/
theorem Reached.exists_lookup (h : Reached service settings history s)
    (hrange : range ∈ (serving settings c s).ranges) (hcontains : range.Contains time)
    (htime : Calendar.isInstant time = true) (hmax : 0 < settings.maxCalls) :
    ∃ found : WeatherReport, found.start = range.lower ∧ found.stop = range.upper ∧
      ∀ other : WeatherService, lookup other settings time c s = .ok found s := by
  obtain ⟨report, hget, hmem⟩ := (h.lawful.serving c).exists_get? hrange hcontains
  obtain rfl : range = ⟨report.start, report.stop⟩ := h.entry_eq hmem
  exact ⟨{ report with coordinate := c }, rfl, rfl, fun _ => lookup_of_found htime hmax hget⟩

theorem maxCalls_pos_of_lookup {r : WeatherReport} (h : lookup service settings time c s = .ok r t) :
    0 < settings.maxCalls := by
  unfold lookup at h
  split at h
  · obtain ⟨k, hk, -⟩ :=
      (ends_lookupWithin service settings time c settings.maxCalls s).of_eq_ok h
    omega
  · cases h

/-- What `u` was answered by a near bucket, `v` is answered too, at any moment of the same range: no
query is made, and the service has no say in it. -/
def Lasting (settings : WeatherSettings) (u v : Turn) : Prop :=
  ∀ (r : WeatherReport) (i : Nat), u.answer = .ok r → NearPlace settings u.coordinate u.after i →
    v.coordinate = u.coordinate → r.start ≤ v.time → v.time < r.stop →
    Calendar.isInstant v.time = true →
    ∃ found : WeatherReport, found.start = r.start ∧ found.stop = r.stop ∧
      v.answer = .ok found ∧ v.after = v.before ∧
      ∀ other : WeatherService, lookup other settings v.time v.coordinate v.before = .ok found v.before

theorem turn_of_lookup {r : WeatherReport} (h : lookup service settings time c s = .ok r t) :
    turn service settings time c s = ⟨time, c, s, .ok r, t⟩ := by
  unfold turn
  rw [h]

theorem lookup_of_answer {r : WeatherReport}
    (h : (turn service settings time c s).answer = .ok r) :
    ∃ t, lookup service settings time c s = .ok r t := by
  unfold turn at h
  split at h
  · rename_i r' t hlookup
    cases h
    exact ⟨t, hlookup⟩
  · cases h

structure Meets (service : WeatherService) (settings : WeatherSettings) (c : Coordinate)
    (range : Range) (v : Turn) : Prop where
  eq_turn : v = turn service settings v.time v.coordinate v.before
  reached : ∃ past, Reached service settings past v.before
  holds : HoldsNear settings c range v.before

theorem meets_turns (hfirst : settings.proximity = .first) (queries : List (Int × Coordinate))
    (h : Reached service settings history s) (hs : HoldsNear settings c range s) :
    ∀ v ∈ turns service settings queries s, Meets service settings c range v := by
  -- by induction on the queries: each of them extends the cache
  induction queries generalizing history s with
  | nil => simp [turns]
  | cons query rest ih =>
    obtain ⟨time, place⟩ := query
    have hsound := sound_turn service settings time place s
    have hbefore := before_turn service settings time place s
    have heq : turn service settings time place s = turn service settings
        (turn service settings time place s).time (turn service settings time place s).coordinate
        (turn service settings time place s).before := by
      cases hlookup : lookup service settings time place s <;> simp only [turn, hlookup]
    unfold turns
    generalize turn service settings time place s = v at hsound hbefore heq
    subst hbefore
    intro u hu
    rcases List.mem_cons.mp hu with rfl | hu
    · exact ⟨heq, ⟨history, h⟩, hs⟩
    · exact ih (h.concat hsound) (hsound.learned.kept.holdsNear hfirst hs) u hu

theorem Meets.exists_answer {v : Turn} (hv : Meets service settings v.coordinate range v)
    (hcontains : range.Contains v.time) (htime : Calendar.isInstant v.time = true)
    (hmax : 0 < settings.maxCalls) :
    ∃ found : WeatherReport, found.start = range.lower ∧ found.stop = range.upper ∧
      v.answer = .ok found ∧ v.after = v.before ∧
      ∀ other : WeatherService,
        lookup other settings v.time v.coordinate v.before = .ok found v.before := by
  obtain ⟨past, hreached⟩ := hv.reached
  obtain ⟨i, -, hrange⟩ := hv.holds
  obtain ⟨found, hstart, hstop, hlookup⟩ := hreached.exists_lookup hrange hcontains htime hmax
  have hturn := hv.eq_turn.trans (turn_of_lookup (hlookup service))
  exact ⟨found, hstart, hstop, by rw [hturn], by rw [hturn], hlookup⟩

theorem Reached.holdsNear {u : Turn} (h : Reached service settings history u.after)
    (hu : u.Sound service settings) {r : WeatherReport} (hr : u.answer = .ok r) {i : Nat}
    (hi : NearPlace settings u.coordinate u.after i) :
    HoldsNear settings u.coordinate ⟨r.start, r.stop⟩ u.after := by
  obtain ⟨found, hget, rfl⟩ := hu.found r hr
  obtain ⟨e, he, -, rfl⟩ := RangeMap.exists_of_get? hget
  have hrange := List.mem_map_of_mem (f := Prod.fst) he
  rw [h.entry_eq he] at hrange
  exact ⟨i, hi, hrange⟩

theorem lasting_turns (hfirst : settings.proximity = .first) (queries : List (Int × Coordinate))
    (h : Reached service settings history s) :
    (turns service settings queries s).Pairwise (Lasting settings) := by
  induction queries generalizing history s with
  | nil => exact .nil
  | cons query rest ih =>
    obtain ⟨time, place⟩ := query
    have hsound := sound_turn service settings time place s
    have hbefore := before_turn service settings time place s
    have hmax : ∀ r, (turn service settings time place s).answer = .ok r → 0 < settings.maxCalls := by
      intro r hr
      obtain ⟨t, hlookup⟩ := lookup_of_answer hr
      exact maxCalls_pos_of_lookup hlookup
    unfold turns
    generalize turn service settings time place s = u at hsound hbefore hmax
    subst hbefore
    have hreached := h.concat hsound
    refine List.pairwise_cons.mpr ⟨fun v hv r i hr hi hplace hlo hhi htime => ?_, ih hreached⟩
    have hmeets := meets_turns hfirst rest hreached (hreached.holdsNear hsound hr hi) v hv
    rw [← hplace] at hmeets
    exact hmeets.exists_answer ⟨hlo, hhi⟩ htime (hmax r hr)

/-- Where the oldest near bucket serves a place, what is answered once stays answered: whatever is
looked up in between, with success or not, and whatever the service would say by now, each later lookup
for the place at a moment of the same range gives a report of this range and asks nobody. -/
theorem served_stays_served (service : WeatherService) {settings : WeatherSettings}
    (hfirst : settings.proximity = .first) (queries : List (Int × Coordinate)) :
    (turns service settings queries {}).Pairwise (Lasting settings) := by
  have hstart : Reached service settings [] {} := ⟨lawful_empty settings, by simp⟩
  exact lasting_turns hfirst queries hstart

theorem served_stays_served_of_sample :
    ({ proximity := .first } : WeatherSettings).proximity = .first ∧
      Lasting { proximity := .first }
        ⟨0, sampleCoordinate, {}, .ok (clearReport sampleCoordinate), clearCache sampleCoordinate⟩
        ⟨5, sampleCoordinate, clearCache sampleCoordinate, .ok (clearReport sampleCoordinate),
          clearCache sampleCoordinate⟩ := by
  refine ⟨rfl, ?_⟩
  have hfirst : turn clearService { proximity := .first } 0 sampleCoordinate {} = _ :=
    turn_of_lookup (lookup_clear_new (by decide) (by decide) (by decide) sampleCoordinate)
  have hsecond : turn clearService { proximity := .first } 5 sampleCoordinate
      (clearCache sampleCoordinate) = _ :=
    turn_of_lookup (lookup_clear (by decide) (by decide) (by decide) sampleCoordinate)
  have hturns : (turns clearService { proximity := .first }
      [(0, sampleCoordinate), (5, sampleCoordinate)] {}).Pairwise (Lasting { proximity := .first }) :=
    served_stays_served clearService rfl _
  simp only [turns, hfirst, hsecond] at hturns
  exact List.rel_of_pairwise_cons hturns (by simp)

end Weather
end DriveLog
