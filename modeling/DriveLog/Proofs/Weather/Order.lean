import DriveLog.Proofs.Weather.Answer
set_option autoImplicit false

namespace DriveLog
namespace Weather
variable {service service' : WeatherService} {settings : WeatherSettings} {time : Int} {c : Coordinate}
  {s : WeatherCache} {reports reports' : List WeatherReport} {known : RangeMap WeatherReport}

/-- Two answers that list the same reports, at most one of them for each stretch, or that fail alike. -/
inductive Relisted : Except WeatherError (List WeatherReport) →
    Except WeatherError (List WeatherReport) → Prop
  | listed {reports reports' : List WeatherReport} (perm : reports.Perm reports')
      (nodup : (reports.map WeatherReport.range).Nodup) : Relisted (.ok reports) (.ok reports')
  | failed {e e' : WeatherError} (kind : e.kind = e'.kind) : Relisted (.error e) (.error e')

/-- Two lookups that leave one cache and one number of queries: both find the report, or they fail alike. -/
inductive SameEnd : EStateM.Result WeatherError WeatherCache WeatherReport →
    EStateM.Result WeatherError WeatherCache WeatherReport → Prop
  | found (r : WeatherReport) (t : WeatherCache) : SameEnd (.ok r t) (.ok r t)
  | failed {e e' : WeatherError} (t : WeatherCache) (kind : e.kind = e'.kind) :
      SameEnd (.error e t) (.error e' t)

theorem prevails_iff_mem (hnodup : (reports.map WeatherReport.range).Nodup) {r : WeatherReport} :
    Prevails reports r ↔ r ∈ reports := by
  have hsorted := ((sortBy_perm (fun a b => a.opens.le b.opens) reports).map
    WeatherReport.range).nodup_iff.mpr hnodup
  rw [← latest_sortBy_opens, latest_iff_mem hsorted, mem_sortBy]

theorem addReports_perm (h : known.Ordered) (hperm : reports.Perm reports')
    (hnodup : (reports.map WeatherReport.range).Nodup) :
    (∃ filled, addReports reports known = .ok filled ∧ addReports reports' known = .ok filled) ∨
      ∃ x x', addReports reports known = .error x ∧ addReports reports' known = .error x' := by
  have hnodup' := (hperm.map WeatherReport.range).nodup_iff.mp hnodup
  refine h.insertAll_perm (List.Perm.map _ ?_) fun e => ?_
  · exact (sortBy_perm _ reports).trans (hperm.trans (sortBy_perm _ reports').symm)
  · rw [latest_sorted, latest_sorted, prevails_iff_mem hnodup, prevails_iff_mem hnodup', hperm.mem_iff]

theorem round_or_refused_of_relisted (h : Lawful settings s)
    (missed : (serving settings c s).get? time = none)
    (hanswers : Relisted (service s.calls time c) (service' s.calls time c)) :
    (∃ t, Round service settings time c s t ∧ Round service' settings time c s t) ∨
      ∃ e e', Refused service settings time c s e ∧ Refused service' settings time c s e' ∧
        e.kind = e'.kind := by
  generalize hanswer : service s.calls time c = answer at hanswers
  generalize hanswer' : service' s.calls time c = answer' at hanswers
  cases hanswers with
  | failed kind => exact .inr ⟨_, _, .failed hanswer, .failed hanswer', kind⟩
  | @listed reports reports' perm nodup =>
    by_cases htold : reports = []
    · subst htold
      obtain rfl := List.nil_perm.mp perm
      exact .inr ⟨_, _, .empty hanswer, .empty hanswer', rfl⟩
    · have htold' : reports' ≠ [] := fun heq => htold (List.perm_nil.mp (heq ▸ perm))
      rcases addReports_perm (h.serving c) perm nodup with ⟨filled, hadded, hadded'⟩ | ⟨x, x', hx, hx'⟩
      · exact .inl ⟨_, .stored missed hanswer htold hadded, .stored missed hanswer' htold' hadded'⟩
      · exact .inr ⟨_, _, .rejected hanswer hx, .rejected hanswer' hx', rfl⟩

theorem sameEnd_lookupWithin (hanswers : ∀ n, Relisted (service n time c) (service' n time c))
    (n : Nat) (h : Lawful settings s) :
    SameEnd (lookupWithin service settings time c n s) (lookupWithin service' settings time c n s) := by
  -- by induction on the queries: after each answer that is stored both lookups go on from one cache
  induction n generalizing s with
  | zero => exact .failed s rfl
  | succ n ih =>
    cases hfound : (serving settings c s).get? time with
    | some found =>
      rw [lookupWithin_of_found hfound, lookupWithin_of_found hfound]
      exact .found _ s
    | none =>
      rcases round_or_refused_of_relisted h hfound (hanswers s.calls) with
        ⟨t, hround, hround'⟩ | ⟨e, e', hrefused, hrefused', hkind⟩
      · rw [lookupWithin_of_round hround, lookupWithin_of_round hround']
        exact ih (hround.lawful h)
      · rw [lookupWithin_of_refused hfound hrefused, lookupWithin_of_refused hfound hrefused']
        exact .failed _ hkind

/-- The order in which reports are listed does not matter: with two services that list the same reports at
each query, at most one for each stretch, a lookup makes the same number of queries, gives the same report
or fails with the same kind of error, and leaves the same cache. -/
theorem lookup_relisted (h : Reachable settings s)
    (hanswers : ∀ n time c, Relisted (service n time c) (service' n time c)) (time : Int)
    (c : Coordinate) :
    SameEnd (lookup service settings time c s) (lookup service' settings time c s) := by
  unfold lookup
  split
  · exact sameEnd_lookupWithin (fun n => hanswers n time c) settings.maxCalls h.lawful
  · exact .failed s rfl

def forwardService : WeatherService := fun _ _ c => .ok [clearReport c, lateReport 176 c]

def backwardService : WeatherService := fun _ _ c => .ok [lateReport 176 c, clearReport c]

theorem lookup_relisted_of_sample : Reachable {} {} ∧
    (∀ n time c, Relisted (forwardService n time c) (backwardService n time c)) ∧
    SameEnd (lookup forwardService {} 10000000000 sampleCoordinate {})
      (lookup backwardService {} 10000000000 sampleCoordinate {}) := by
  have hanswers : ∀ n time c, Relisted (forwardService n time c) (backwardService n time c) :=
    fun _ _ _ => .listed (.swap _ _ _) (by simp [WeatherReport.range, clearReport, lateReport])
  exact ⟨.new, hanswers, lookup_relisted .new hanswers 10000000000 sampleCoordinate⟩

end Weather
end DriveLog
