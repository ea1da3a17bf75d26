import DriveLog.Proofs.Outcome
import DriveLog.Proofs.Weather.Bucket
/-!
A lookup as a number of rounds, each of which finds nothing and stores an answer of the service, and
the way it ends: with a report that is found, an answer that is refused, or the limit on rounds. Main
statement: at the limit every answer but the last one is known not to tell about the moment.
-/
set_option autoImplicit false

namespace DriveLog
namespace Weather

/-- The reports that a query for a place is answered from. -/
def serving (settings : WeatherSettings) (c : Coordinate) (s : WeatherCache) :
    RangeMap WeatherReport :=
  reportsAt (bucketFor? settings c s.buckets) s.buckets

def Silent (time : Int) (reports : List WeatherReport) : Prop :=
  ∀ r ∈ reports, ¬ (r.start ≤ time ∧ time < r.stop)

instance (time : Int) (reports : List WeatherReport) : Decidable (Silent time reports) :=
  inferInstanceAs (Decidable (∀ r ∈ reports, ¬ (r.start ≤ time ∧ time < r.stop)))

section rounds
variable (service : WeatherService) (settings : WeatherSettings) (time : Int) (c : Coordinate)

/-- Nothing is found, and all that the service answers is stored. -/
inductive Round : WeatherCache → WeatherCache → Prop
  | stored {s : WeatherCache} {reports : List WeatherReport} {filled : RangeMap WeatherReport}
      (missed : (serving settings c s).get? time = none)
      (answered : service s.calls time c = .ok reports) (told : reports ≠ [])
      (added : addReports reports (serving settings c s) = .ok filled) :
      Round s ⟨s.calls + 1, store (bucketFor? settings c s.buckets) c filled s.buckets⟩

inductive Rounds : Nat → WeatherCache → WeatherCache → Prop
  | start (s : WeatherCache) : Rounds 0 s s
  | cons {n : Nat} {s t u : WeatherCache} (h : Round service settings time c s t)
      (hrest : Rounds n t u) : Rounds (n + 1) s u

inductive Refused (s : WeatherCache) : WeatherError → Prop
  | failed {e : WeatherError} (h : service s.calls time c = .error e) : Refused s e
  | empty (h : service s.calls time c = .ok []) : Refused s (.emptyResponse time c)
  | rejected {reports : List WeatherReport} {e : RangeMapError}
      (answered : service s.calls time c = .ok reports)
      (h : addReports reports (serving settings c s) = .error e) : Refused s (.cache e)

end rounds

variable {service : WeatherService} {settings : WeatherSettings} {time : Int} {c : Coordinate}
  {s t u : WeatherCache} {n : Nat}

theorem ends_ask (service : WeatherService) (time : Int) (c : Coordinate) (s : WeatherCache) :
    Ends (ask service time c) s
      (fun reports t => service s.calls time c = .ok reports ∧ reports ≠ [] ∧
        t = { s with calls := s.calls + 1 })
      (fun e t => Refused service settings time c s e ∧ t = { s with calls := s.calls + 1 }) := by
  unfold ask
  refine Ends.get_bind (Ends.set_bind ?_)
  cases hanswer : service s.calls time c with
  | error e => exact Ends.throw ⟨.failed hanswer, rfl⟩
  | ok reports =>
    cases reports with
    | nil => exact Ends.throw ⟨.empty hanswer, rfl⟩
    | cons r rest => exact Ends.pure ⟨rfl, by simp, rfl⟩

theorem ends_fetch (service : WeatherService) (missed : (serving settings c s).get? time = none) :
    Ends (fetch service (bucketFor? settings c s.buckets) time c) s
      (fun _ t => Round service settings time c s t)
      (fun e t => Refused service settings time c s e ∧ t = { s with calls := s.calls + 1 }) := by
  unfold fetch
  refine (ends_ask service time c s).bind fun reports t ht => Ends.get_bind ?_
  obtain ⟨hanswer, htold, rfl⟩ := ht
  cases hadded : addReports reports (serving settings c s) with
  | error e =>
    unfold serving at hadded
    simp only [hadded]
    exact Ends.throw ⟨.rejected hanswer hadded, rfl⟩
  | ok filled =>
    have hround := Round.stored missed hanswer htold hadded
    unfold serving at hadded
    simp only [hadded]
    exact hround

/-- A lookup ends after some rounds: with a report that was found or an answer that was refused before
the limit, or else at the limit. -/
theorem ends_lookupWithin (service : WeatherService) (settings : WeatherSettings) (time : Int)
    (c : Coordinate) (n : Nat) (s : WeatherCache) :
    Ends (lookupWithin service settings time c n) s
      (fun r t => ∃ k < n, Rounds service settings time c k s t ∧
        ∃ found, (serving settings c t).get? time = some found ∧ r = { found with coordinate := c })
      (fun e t => (e = .callLimit time c settings.maxCalls ∧ Rounds service settings time c n s t) ∨
        ∃ k < n, ∃ u, Rounds service settings time c k s u ∧
          Refused service settings time c u e ∧ t = { u with calls := u.calls + 1 }) := by
  induction n generalizing s with
  | zero => exact Ends.throw (.inl ⟨rfl, .start s⟩)
  | succ n ih =>
    unfold lookupWithin
    refine Ends.get_bind ?_
    cases hfound : (serving settings c s).get? time with
    | some found =>
      unfold serving at hfound
      simp only [hfound]
      exact Ends.pure ⟨0, by omega, .start s, found, hfound, rfl⟩
    | none =>
      have hfetch := ends_fetch service hfound
      unfold serving at hfound
      simp only [hfound]
      refine (hfetch.mono (fun _ _ h => h) fun e t ht => ?_).bind fun _ t hround => ?_
      · exact .inr ⟨0, by omega, s, .start s, ht⟩
      · refine (ih t).mono (fun r u hu => ?_) fun e u hu => ?_
        · obtain ⟨k, hk, hrounds, hhit⟩ := hu
          exact ⟨k + 1, by omega, .cons hround hrounds, hhit⟩
        · rcases hu with ⟨rfl, hrounds⟩ | ⟨k, hk, last, hrounds, hrefused⟩
          · exact .inl ⟨rfl, .cons hround hrounds⟩
          · exact .inr ⟨k + 1, by omega, last, .cons hround hrounds, hrefused⟩

theorem lookupWithin_of_found {found : WeatherReport}
    (hfound : (serving settings c s).get? time = some found) :
    lookupWithin service settings time c (n + 1) s = .ok { found with coordinate := c } s := by
  unfold serving at hfound
  rw [lookupWithin, get_bind_eq]
  simp only [hfound]
  rfl

theorem ask_of_answered {reports : List WeatherReport}
    (answered : service s.calls time c = .ok reports) (told : reports ≠ []) :
    ask service time c s = .ok reports ⟨s.calls + 1, s.buckets⟩ := by
  unfold ask
  rw [get_bind_eq, set_bind_eq]
  cases reports with
  | nil => exact absurd rfl told
  | cons r rest => simp only [answered]; rfl

theorem fetch_of_answered {reports : List WeatherReport} {filled : RangeMap WeatherReport}
    (answered : service s.calls time c = .ok reports) (told : reports ≠ [])
    (added : addReports reports (serving settings c s) = .ok filled) :
    fetch service (bucketFor? settings c s.buckets) time c s =
      .ok () ⟨s.calls + 1, store (bucketFor? settings c s.buckets) c filled s.buckets⟩ := by
  unfold serving at added
  unfold fetch
  rw [bind_of_eq_ok (ask_of_answered answered told), get_bind_eq]
  simp only [added]
  rfl

theorem fetch_of_refused {e : WeatherError} (h : Refused service settings time c s e) :
    fetch service (bucketFor? settings c s.buckets) time c s =
      .error e { s with calls := s.calls + 1 } := by
  have hask : ∀ {e}, ask service time c s = .error e { s with calls := s.calls + 1 } →
      fetch service (bucketFor? settings c s.buckets) time c s =
        .error e { s with calls := s.calls + 1 } := fun h => by rw [fetch, bind_of_eq_error h]
  cases h with
  | failed h =>
    refine hask ?_
    rw [ask, get_bind_eq, set_bind_eq]
    simp only [h]
    rfl
  | empty h =>
    refine hask ?_
    rw [ask, get_bind_eq, set_bind_eq]
    simp only [h]
    rfl
  | @rejected reports e answered h =>
    have told : reports ≠ [] := by
      rintro rfl
      cases h
    unfold serving at h
    rw [fetch, bind_of_eq_ok (ask_of_answered answered told), get_bind_eq]
    simp only [h]
    rfl

theorem lookupWithin_of_round (h : Round service settings time c s t) :
    lookupWithin service settings time c (n + 1) s = lookupWithin service settings time c n t := by
  cases h with
  | @stored reports filled missed answered told added =>
    have hfetch := fetch_of_answered answered told added
    unfold serving at missed
    rw [lookupWithin, get_bind_eq]
    simp only [missed]
    exact bind_of_eq_ok hfetch

theorem lookupWithin_of_refused {e : WeatherError}
    (missed : (serving settings c s).get? time = none) (h : Refused service settings time c s e) :
    lookupWithin service settings time c (n + 1) s = .error e { s with calls := s.calls + 1 } := by
  unfold serving at missed
  rw [lookupWithin, get_bind_eq]
  simp only [missed]
  exact bind_of_eq_error (fetch_of_refused h)

theorem lookupWithin_of_rounds {k : Nat} (h : Rounds service settings time c k s u) :
    lookupWithin service settings time c (n + k) s = lookupWithin service settings time c n u := by
  induction h with
  | start s => rfl
  | cons hround hrest ih => exact (lookupWithin_of_round hround).trans ih

theorem serving_store (settings : WeatherSettings) (c : Coordinate) (s : WeatherCache)
    (calls : Nat) (filled : RangeMap WeatherReport) :
    serving settings c ⟨calls, store (bucketFor? settings c s.buckets) c filled s.buckets⟩ =
      filled := by
  obtain ⟨i, hplace, hreports⟩ := exists_of_store settings c s.buckets filled
  unfold serving
  rw [hplace]
  exact hreports

theorem lookup_of_found (htime : Calendar.isInstant time = true) (hmax : 1 ≤ settings.maxCalls)
    {found : WeatherReport} (hfound : (serving settings c s).get? time = some found) :
    lookup service settings time c s = .ok { found with coordinate := c } s := by
  obtain ⟨n, hn⟩ := Nat.exists_eq_add_of_le' hmax
  rw [lookup, if_pos htime, hn]
  exact lookupWithin_of_found hfound

theorem lookup_of_round (htime : Calendar.isInstant time = true) (hmax : 2 ≤ settings.maxCalls)
    (hround : Round service settings time c s t) {found : WeatherReport}
    (hfound : (serving settings c t).get? time = some found) :
    lookup service settings time c s = .ok { found with coordinate := c } t := by
  obtain ⟨n, hn⟩ := Nat.exists_eq_add_of_le' hmax
  rw [lookup, if_pos htime, hn, lookupWithin_of_round hround]
  exact lookupWithin_of_found hfound

theorem get?_eq_none_of_added {known filled : RangeMap WeatherReport} {reports : List WeatherReport}
    (hadded : addReports reports known = .ok filled) (missed : known.get? time = none) :
    filled.get? time = none ↔ Silent time reports := by
  have hgrown := RangeMap.grown_of_insertAll hadded
  rw [RangeMap.get?_eq_none_iff] at missed ⊢
  constructor
  · intro h r hr
    exact h ⟨r.start, r.stop⟩ (hgrown.stored (⟨r.start, r.stop⟩, r)
      (List.mem_map.mpr ⟨r, mem_sortBy.mpr hr, rfl⟩))
  · intro hsilent range hrange
    obtain ⟨e, he, rfl⟩ := List.mem_map.mp hrange
    rcases hgrown.mem e he with hnew | hold
    · obtain ⟨r, hr, rfl⟩ := List.mem_map.mp hnew
      exact hsilent r (mem_sortBy.mp hr)
    · exact missed e.1 (List.mem_map_of_mem hold)

theorem Round.exists_answer (h : Round service settings time c s t) :
    t.calls = s.calls + 1 ∧ ∃ reports, service s.calls time c = .ok reports ∧
      ((serving settings c t).get? time = none ↔ Silent time reports) := by
  cases h with
  | stored missed answered told added =>
    refine ⟨rfl, _, answered, ?_⟩
    rw [serving_store]
    exact get?_eq_none_of_added added missed

namespace Rounds

theorem calls_eq (h : Rounds service settings time c n s t) : t.calls = s.calls + n := by
  induction h with
  | start s => rfl
  | cons hround hrest ih =>
    obtain ⟨hcalls, -⟩ := hround.exists_answer
    omega

/-- A round is made only if the one before it has not brought the report that is looked for. -/
theorem exists_answer (h : Rounds service settings time c n s u) {k : Nat} (hlo : s.calls ≤ k)
    (hhi : k < u.calls) :
    ∃ reports, service k time c = .ok reports ∧ (k + 1 < u.calls → Silent time reports) ∧
      (k + 1 = u.calls → ((serving settings c u).get? time = none ↔ Silent time reports)) := by
  induction h with
  | start s => omega
  | @cons n s t u hround hrest ih =>
    obtain ⟨hcalls, reports, hanswer, hsilent⟩ := hround.exists_answer
    by_cases hfirst : k = s.calls
    · subst hfirst
      refine ⟨reports, hanswer, fun hmore => ?_, ?_⟩
      · cases hrest with
        | start => omega
        | cons hnext _ =>
          cases hnext with
          | stored missed _ _ _ => exact hsilent.mp missed
      · cases hrest with
        | start => exact fun _ => hsilent
        | cons hnext hrest =>
          have hnext := hnext.exists_answer.1
          have hrest := hrest.calls_eq
          exact fun hlast => absurd hlast (by omega)
    · exact ih (by omega) hhi

end Rounds

/-- A lookup that ends at the limit has made as many queries as are allowed. None of the answers but
the last one tells about the moment; the last one is stored, and does so unless nothing is found for
the moment in the end. -/
theorem silent_of_callLimit
    (hservice : ∀ n, service n time c ≠ .error (.callLimit time c settings.maxCalls))
    (h : lookup service settings time c s = .error (.callLimit time c settings.maxCalls) t) :
    t.calls = s.calls + settings.maxCalls ∧
      ∀ k, s.calls ≤ k → k < t.calls → ∃ reports, service k time c = .ok reports ∧
        (k + 1 < t.calls → Silent time reports) ∧
        (k + 1 = t.calls → ((serving settings c t).get? time = none ↔ Silent time reports)) := by
  have hrounds : Rounds service settings time c settings.maxCalls s t := by
    unfold lookup at h
    split at h
    · rcases (ends_lookupWithin service settings time c settings.maxCalls s).of_eq_error h with
        ⟨-, hrounds⟩ | ⟨k, hk, u, -, hrefused, -⟩
      · exact hrounds
      · cases hrefused with
        | failed h => exact absurd h (hservice u.calls)
    · cases h
  exact ⟨hrounds.calls_eq, fun k hlo hhi => hrounds.exists_answer hlo hhi⟩

def clearReport (c : Coordinate) : WeatherReport :=
  .ofMillis 0 10000000000 113 c .fake

def clearService : WeatherService := fun _ _ c => .ok [clearReport c]

def clearCache (c : Coordinate) : WeatherCache :=
  ⟨1, [⟨c.text, c, ⟨[(⟨0, 10000000000⟩, clearReport c)]⟩⟩]⟩

def sampleCoordinate : Coordinate := ⟨⟨0⟩, ⟨0⟩⟩

theorem silent_of_callLimit_of_sample :
    lookup clearService { maxCalls := 1 } 0 sampleCoordinate {} =
        .error (.callLimit 0 sampleCoordinate 1) (clearCache sampleCoordinate) ∧
      (serving { maxCalls := 1 } sampleCoordinate (clearCache sampleCoordinate)).get? 0 ≠ none := by
  have hservice : ∀ n, clearService n 0 sampleCoordinate ≠
      .error (.callLimit 0 sampleCoordinate ({ maxCalls := 1 } : WeatherSettings).maxCalls) := by
    simp [clearService]
  have hlimit : lookup clearService { maxCalls := 1 } 0 sampleCoordinate {} =
      .error (.callLimit 0 sampleCoordinate 1) (clearCache sampleCoordinate) := rfl
  refine ⟨hlimit, fun hnone => ?_⟩
  obtain ⟨-, hanswers⟩ := silent_of_callLimit hservice hlimit
  obtain ⟨reports, hanswer, -, hlast⟩ := hanswers 0 (by decide) (by decide)
  cases hanswer
  exact absurd ((hlast rfl).mp hnone) (by decide)

theorem round_new (settings : WeatherSettings) {reports : List WeatherReport}
    {filled : RangeMap WeatherReport} (answered : service 0 time c = .ok reports) (told : reports ≠ [])
    (added : addReports reports .empty = .ok filled) :
    Round service settings time c {} ⟨1, [⟨c.text, c, filled⟩]⟩ := by
  have hserving : serving settings c {} = .empty := by
    unfold serving
    rw [bucketFor?_nil]
    rfl
  have hmissed : (serving settings c {}).get? time = none := by
    rw [hserving]
    rfl
  have hround := Round.stored hmissed answered told (hserving ▸ added)
  rwa [bucketFor?_nil] at hround

theorem serving_new (settings : WeatherSettings) (c : Coordinate) (calls : Nat)
    (filled : RangeMap WeatherReport) : serving settings c ⟨calls, [⟨c.text, c, filled⟩]⟩ = filled := by
  have hstore := serving_store settings c {} calls filled
  rwa [bucketFor?_nil] at hstore

theorem addReports_one {r : WeatherReport} (h : r.start < r.stop) :
    addReports [r] .empty = .ok ⟨[(⟨r.start, r.stop⟩, r)]⟩ := by
  simp only [addReports, sortBy, insertBy, List.map_cons, List.map_nil, RangeMap.insertAll,
    List.foldlM_cons, RangeMap.insert, if_pos h, RangeMap.empty, RangeMap.insertEntry]
  rfl

theorem addReports_clear (c : Coordinate) :
    addReports [clearReport c] .empty = .ok ⟨[(⟨0, 10000000000⟩, clearReport c)]⟩ := by
  have hone := addReports_one (r := clearReport c) (by simp [clearReport])
  simpa only [clearReport, WeatherReport.start_ofMillis, WeatherReport.stop_ofMillis] using hone

theorem round_clear (settings : WeatherSettings) (time : Int) (c : Coordinate) :
    Round clearService settings time c {} (clearCache c) :=
  round_new settings rfl (by simp) (addReports_clear c)

theorem serving_clear (settings : WeatherSettings) (c : Coordinate) :
    serving settings c (clearCache c) = ⟨[(⟨0, 10000000000⟩, clearReport c)]⟩ :=
  serving_new settings c 1 _

section clear
variable (hlo : 0 ≤ time) (hhi : time < 10000000000)
include hlo hhi

theorem get?_clear (settings : WeatherSettings) (c : Coordinate) :
    (serving settings c (clearCache c)).get? time = some (clearReport c) := by
  have hcontains : Range.Contains ⟨0, 10000000000⟩ time := ⟨hlo, hhi⟩
  rw [serving_clear]
  simp [RangeMap.get?, hcontains]

theorem isInstant_of_clear : Calendar.isInstant time = true := by
  unfold Calendar.isInstant
  simp only [Bool.and_eq_true, decide_eq_true_eq]
  omega

theorem lookup_clear (hmax : 1 ≤ settings.maxCalls) (c : Coordinate) :
    lookup clearService settings time c (clearCache c) = .ok (clearReport c) (clearCache c) :=
  lookup_of_found (isInstant_of_clear hlo hhi) hmax (get?_clear hlo hhi settings c)

theorem lookup_clear_new (hmax : 2 ≤ settings.maxCalls) (c : Coordinate) :
    lookup clearService settings time c {} = .ok (clearReport c) (clearCache c) :=
  lookup_of_round (isInstant_of_clear hlo hhi) hmax (round_clear settings time c)
    (get?_clear hlo hhi settings c)

end clear

/-- The limit is told also when the last answer tells about the moment. -/
theorem callLimit_not_silent :
    ¬ ∀ (service : WeatherService) (settings : WeatherSettings) (time : Int) (c : Coordinate)
      (s t : WeatherCache), 1 ≤ settings.maxCalls →
      (∀ n, service n time c ≠ .error (.callLimit time c settings.maxCalls)) →
      lookup service settings time c s = .error (.callLimit time c settings.maxCalls) t →
      (∀ k reports, s.calls ≤ k → k < t.calls → service k time c = .ok reports →
        Silent time reports) ∧ (serving settings c t).get? time = none := by
  intro h
  have hsilent := (h clearService { maxCalls := 1 } 0 sampleCoordinate {} _ (by decide)
    (by simp [clearService]) rfl).1 0 _ (by decide) (by decide) rfl
  exact absurd hsilent (by decide)

end Weather

end DriveLog
