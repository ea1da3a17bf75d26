import DriveLog.Ingest.Basic
import DriveLog.Proofs.Store.Frame
import DriveLog.Proofs.Timeline.Report
import DriveLog.Proofs.Trip.Run
import DriveLog.Proofs.Weather.Condition
/-!
Runs of the intake on a store without failures: what each call keeps, and what one that fails leaves
behind. Main statement: at every moment of a reported trip, exactly one segment of the report is over
it, and this lists what has been recorded for the user and is active then.
-/
set_option autoImplicit false

namespace DriveLog

namespace Table
variable {t : Table} {pending : List Span} {l : List Fact} {r : Record}

def IsRaw (t : Table) : Prop := ∀ e ∈ t, e.2.IsRaw

theorem holds_of_isRaw (hwf : t.WellFormed) (h : t.IsRaw) : t.Holds pending [] := by
  have htrips : t.trips = trips [] := List.eq_nil_iff_forall_not_mem.mpr fun T hT =>
    (h _ (hwf.get?_eq_some_iff.mp ((mem_trips_iff hwf).mp hT))).ne_trip (T := T) rfl
  have hfacts : t.facts = facts [] := List.eq_nil_iff_forall_not_mem.mpr fun f hf =>
    (h _ (hwf.get?_eq_some_iff.mp ((mem_facts_iff hwf).mp hf))).ne_fact (f := f) rfl
  have hmem : ∀ f, f ∈ t.facts ↔ f ∈ facts [] := fun f => by rw [hfacts]
  constructor
  case sound => exact sound_nil.congr hwf (fun T => by rw [htrips]) hmem
  case accounted => exact accounted_nil.congr (fun T => by rw [htrips]) hmem
  case facts => exact hfacts ▸ .refl _

theorem Holds.putRaw (h : t.Holds pending l) (hr : r.IsRaw) :
    (t.put r.key r).Holds pending l := by
  have hwf := h.sound.wellFormed
  have htrips : ∀ T, T ∈ (t.put r.key r).trips ↔ T ∈ t.trips := fun _ => mem_trips_put_raw hwf hr
  have hfacts : ∀ f, f ∈ (t.put r.key r).facts ↔ f ∈ t.facts := fun _ => mem_facts_put_raw hwf hr
  have hperm : ((t.put r.key r).facts).Perm t.facts := by
    refine facts_put_perm hwf (Option.eq_none_iff_forall_not_mem.mpr fun f hf => ?_)
    exact hr.ne_fact (congrArg Record.key (Fact.ofRecord?_eq_some_iff.mp hf))
  exact ⟨h.sound.congr (hwf.put rfl) htrips hfacts, h.accounted.congr htrips hfacts,
    (hperm.map _).trans h.facts⟩

end Table

namespace Validation
variable {p : Prop} [Decidable p] {e : ValidationError} {v : Validated}

theorem refuseIf_eq_ok_iff : refuseIf p e = .ok () ↔ ¬ p := by
  unfold refuseIf
  split <;> simp_all

theorem bind_eq_ok_iff {next : Unit → Validated} :
    (v >>= next) = .ok () ↔ v = .ok () ∧ next () = .ok () := by
  cases v <;> simp [bind, Except.bind]

theorem of_event {e : Event} (h : event e = .ok ()) : e.type ≠ .unknown ∧ e.time ≠ 0 := by
  simp only [event, requireTime, bind_eq_ok_iff, refuseIf_eq_ok_iff] at h
  obtain ⟨-, htime, htype, -⟩ := h
  exact ⟨htype, htime⟩

theorem of_condition {c : DrivingCondition} (h : condition c = .ok ()) :
    c.start ≤ c.stop ∧ c.severity.isFinite = true := by
  simp only [condition, window, requireFinite, bind_eq_ok_iff, refuseIf_eq_ok_iff] at h
  obtain ⟨-, -, -, hwindow, hseverity, -⟩ := h
  exact ⟨Int.not_lt.mp hwindow, by simpa using hseverity⟩

end Validation

inductive IngestCall where
  | event (e : Event)
  | condition (c : DrivingCondition)
  | locations (user : String) (samples : List RawLocation)
  | report (user : String) (start stop : Int)

inductive IngestAnswer where
  | event (e : Event)
  | condition (c : DrivingCondition)
  | locations (conditions : List DrivingCondition)
  | report (reports : List TripReport)

def IngestAnswer.recorded : IngestAnswer → List Fact
  | .event e => [.event e]
  | .condition c => [.condition c]
  | .locations conditions => conditions.map .condition
  | .report _ => []

namespace Ingest

def answer {σ : Type} [RecordStore σ] (service : WeatherService) (settings : IngestSettings) :
    IngestCall → IngestM σ IngestAnswer
  | .event e => .event <$> recordEvent e
  | .condition c => .condition <$> recordCondition c
  | .locations user samples => .locations <$> recordLocations service settings user samples
  | .report user start stop => .report <$> reportTrips settings user start stop

/-- Calls that are made one after the other, with the answers and the intake at the end. -/
def serve {σ : Type} [RecordStore σ] (service : WeatherService) (settings : IngestSettings) :
    List IngestCall → Intake σ → List (Except IngestError IngestAnswer) × Intake σ
  | [], s => ([], s)
  | call :: rest, s =>
    match answer service settings call s with
    | .ok a t => (.ok a :: (serve service settings rest t).1, (serve service settings rest t).2)
    | .error e t => (.error e :: (serve service settings rest t).1, (serve service settings rest t).2)

def recorded (answers : List (Except IngestError IngestAnswer)) : List Fact :=
  answers.flatMap fun a => match a with
    | .ok a => a.recorded
    | .error _ => []

theorem ends_validate {σ : Type} {s : Intake σ} {v : Validated} :
    Ends (validate v) s (fun _ t => t = s ∧ v = .ok ())
      (fun e t => t = s ∧ ∃ error, e = .validation error ∧ v = .error error) := by
  cases v with
  | ok u => exact Ends.pure ⟨rfl, rfl⟩
  | error error => exact Ends.throw ⟨rfl, error, rfl, rfl⟩

theorem weather_onStore {σ ε α : Type} {act : EStateM ε σ α} {wrap : ε → IngestError} :
    Throughout (fun s t : Intake σ => t.weather = s.weather) (onStore wrap act) :=
  fun s => (Ends.trivial act s.store).focus (fun _ _ _ => rfl) fun _ _ _ => rfl

theorem weather_mapM_onStore {σ ε α β : Type} {act : α → EStateM ε σ β} {wrap : ε → IngestError}
    {l : List α} :
    Throughout (fun s t : Intake σ => t.weather = s.weather)
      (l.mapM fun a => onStore wrap (act a)) :=
  Throughout.mapM (R := fun s t : Intake σ => t.weather = s.weather) (fun _ => rfl)
    (fun _ _ _ h h' => h'.trans h) fun _ _ => weather_onStore

inductive Invalid : IngestCall → ValidationError → Prop
  | event {e : Event} {error : ValidationError} (h : Validation.event e = .error error) :
      Invalid (.event e) error
  | condition {c : DrivingCondition} {error : ValidationError}
      (h : Validation.condition c = .error error) : Invalid (.condition c) error
  | location {user : String} {samples : List RawLocation} {sample : RawLocation}
      {error : ValidationError} (hmem : sample ∈ samples)
      (h : Validation.location user sample = .error error) :
      Invalid (.locations user samples) error
  | user {user : String} {start stop : Int} {error : ValidationError}
      (h : Validation.requireText "user_id" user = .error error) :
      Invalid (.report user start stop) error
  | window {user : String} {start stop : Int} {error : ValidationError}
      (h : Validation.window start stop = .error error) : Invalid (.report user start stop) error

/-- Samples are put into the table under new ids, one after the other; `stored` is what they are there. -/
inductive Stores (t : Table) : (samples stored : List RawLocation) → Table → Prop
  | nil : Stores t [] [] t
  | concat {samples stored : List RawLocation} {u : Table} {sample : RawLocation} {id : String}
      (h : Stores t samples stored u) (hnew : ∀ kind, u.get? ⟨kind, id⟩ = none) :
      Stores t (samples ++ [sample]) (stored ++ [{ sample with id }])
        (u.put ⟨.rawLocation, id⟩ (.rawLocation { sample with id }))

def Saved (t : Table) (samples : List RawLocation) (k : RawLocation) : Prop :=
  (∃ sample ∈ samples, ∃ id, k = { sample with id }) ∧
    t.get? ⟨.rawLocation, k.id⟩ = some (.rawLocation k)

theorem Saved.grow {t u : Table} {samples more : List RawLocation} {k : RawLocation}
    (h : Saved t samples k) (hu : t.Kept u) (hmore : ∀ sample ∈ samples, sample ∈ more) :
    Saved u more k := by
  obtain ⟨⟨sample, hsample, hk⟩, hget⟩ := h
  exact ⟨⟨sample, hmore sample hsample, hk⟩, hu _ _ hget⟩

namespace Stores
variable {t u : Table} {samples stored : List RawLocation}

theorem kept (h : Stores t samples stored u) : t.Kept u := by
  induction h with
  | nil => exact .refl t
  | concat _ hnew ih => exact ih.trans (.put (hnew _) _)

theorem get?_eq {key : RecordKey} (h : Stores t samples stored u) (hkind : key.kind ≠ .rawLocation) :
    u.get? key = t.get? key := by
  induction h with
  | nil => rfl
  | @concat _ _ _ _ id _ _ ih =>
    have hne : (⟨.rawLocation, id⟩ : RecordKey) ≠ key := by
      rintro rfl
      exact hkind rfl
    rw [Table.get?_put_of_ne hne, ih]

theorem saved (h : Stores t samples stored u) : ∀ k ∈ stored, Saved u samples k := by
  induction h with
  | nil => simp
  | @concat _ _ _ sample id _ hnew ih =>
    intro k hk
    rcases List.mem_append.mp hk with hk | hk
    · exact (ih k hk).grow (.put (hnew _) _) fun _ h => List.mem_append_left _ h
    · obtain rfl := List.mem_singleton.mp hk
      exact ⟨⟨sample, by simp, id, rfl⟩, Table.get?_put_self _ _ _⟩

end Stores

/-- The condition names one of the samples, as it is stored, as its source. -/
def Traced (t : Table) (samples : List RawLocation) (c : DrivingCondition) : Prop :=
  ∃ k, Saved t samples k ∧ c.source = ⟨.rawLocation, k.id⟩

section keeps
variable {σ : Type} [RecordStore σ] [LawfulStore σ]
open LawfulStore (table Ready)

section outcomes
variable (service : WeatherService) (settings : IngestSettings)

/-- What an accepted call has recorded: what it told, or all the weather that there was at samples when
they had been stored. -/
inductive Answers : IngestCall → Intake σ → IngestAnswer → Intake σ → Prop
  | event {e e' : Event} {s t : Intake σ} (h : (Fact.event e').content = (Fact.event e).content) :
      Answers (.event e) s (.event e') t
  | condition {c c' : DrivingCondition} {s t : Intake σ}
      (h : (Fact.condition c').content = (Fact.condition c).content) :
      Answers (.condition c) s (.condition c') t
  | locations {user : String} {samples stored : List RawLocation}
      {generated conditions : List DrivingCondition} {s t : Intake σ} {u : Table}
      (stores : Stores (table s.store) samples stored u)
      (generates : Weather.generate service settings.weather user stored s.weather =
        .ok generated t.weather)
      (records : List.Forall₂
        (fun c c' => (Fact.condition c').content = (Fact.condition c).content) generated conditions)
      (users : ∀ c ∈ conditions, c.user = user) :
      Answers (.locations user samples) s (.locations conditions) t
  | report {user : String} {start stop : Int} {reports : List TripReport} {s t : Intake σ} :
      Answers (.report user start stop) s (.report reports) t

inductive Fails : IngestCall → Intake σ → IngestError → Intake σ → Prop
  | validation {call : IngestCall} {error : ValidationError} (h : Invalid call error) (s : Intake σ) :
      Fails call s (.validation error) s
  | timeline {user : String} {start stop : Int} {error : TimelineError} {s t : Intake σ}
      (h : table t.store = table s.store) : Fails (.report user start stop) s (.timeline error) t
  | weather {user : String} {samples stored : List RawLocation} {error : WeatherError}
      {s t : Intake σ} (stores : Stores (table s.store) samples stored (table t.store))
      (fails : Weather.generate service settings.weather user stored s.weather =
        .error error t.weather) :
      Fails (.locations user samples) s (.weather error) t

inductive Served : List IngestCall → Intake σ → List (Except IngestError IngestAnswer) →
    Intake σ → Prop
  | done (s : Intake σ) : Served [] s [] s
  | accepted {call : IngestCall} {rest : List IngestCall} {a : IngestAnswer}
      {answers : List (Except IngestError IngestAnswer)} {s t u : Intake σ}
      (run : answer service settings call s = .ok a t) (h : Answers service settings call s a t)
      (hrest : Served rest t answers u) : Served (call :: rest) s (.ok a :: answers) u
  | failed {call : IngestCall} {rest : List IngestCall} {e : IngestError}
      {answers : List (Except IngestError IngestAnswer)} {s t u : Intake σ}
      (run : answer service settings call s = .error e t) (h : Fails service settings call s e t)
      (hrest : Served rest t answers u) : Served (call :: rest) s (.error e :: answers) u

end outcomes

/-- The intake between two calls, the facts `l` having been recorded. -/
structure Keeps (l : List Fact) (s : Intake σ) : Prop where
  ready : Ready true s.store
  holds : (table s.store).Holds [] (l.map Fact.unplaced)
  severity : ∀ c, .condition c ∈ l → c.severity.isNaN = false

structure Prepared (service : WeatherService) (settings : IngestSettings) (l : List Fact) (s : Intake σ)
    (user : String) (samples stored : List RawLocation) (conditions : List DrivingCondition)
    (t : Intake σ) : Prop where
  keeps : Keeps l t
  stores : Stores (table s.store) samples stored (table t.store)
  generates : Weather.generate service settings.weather user stored s.weather = .ok conditions t.weather
  sensible : ∀ c ∈ conditions, Weather.Sensible user c
  sorted : conditions.Pairwise fun c d => c.start ≤ d.start
  traced : ∀ c ∈ conditions, Traced (table t.store) samples c

variable {s : Intake σ} {l : List Fact}

theorem ends_recordFact {f : Fact} {ε : Type} {α : Type} {act : EStateM ε σ α} {wrap : α → Fact}
    {toError : ε → IngestError} (hk : Keeps l s)
    (hseverity : ∀ c, f = .condition c → c.severity.isNaN = false)
    (h : Ends act s.store (fun a t => Ready true t ∧
      (table t).Holds [] ((wrap a).unplaced :: l.map Fact.unplaced) ∧ (wrap a).content = f.content)
      (fun _ _ => False)) :
    Ends (onStore toError act) s (fun a t => Keeps (wrap a :: l) t ∧ (wrap a).content = f.content)
      (fun _ _ => False) := by
  refine h.focus (fun a t ha => ?_) fun _ _ he => he.elim
  obtain ⟨hready, hholds, hcontent⟩ := ha
  refine ⟨⟨hready, hholds, fun c hc => ?_⟩, hcontent⟩
  rcases List.mem_cons.mp hc with hc | hc
  · rw [← hc] at hcontent
    obtain ⟨d, hd, hsame⟩ := Fact.condition_of_content hcontent
    rw [hsame]
    exact hseverity d hd
  · exact hk.severity c hc

theorem Keeps.perm {m : List Fact} (h : Keeps l s) (hlm : l.Perm m) : Keeps m s :=
  ⟨h.ready, h.holds.perm (hlm.map _), fun c hc => h.severity c (hlm.mem_iff.mpr hc)⟩

theorem ends_rule (service : WeatherService) (settings : IngestSettings) {v : Validated}
    {call : IngestCall} (hk : Keeps l s) (h : ∀ error, v = .error error → Invalid call error) :
    Ends (validate v) s (fun _ t => t = s ∧ v = .ok ())
      (fun e t => Keeps l t ∧ Fails service settings call s e t) := by
  refine ends_validate.mono (fun _ _ ht => ht) fun e t ht => ?_
  obtain ⟨rfl, error, rfl, hv⟩ := ht
  exact ⟨hk, .validation (h error hv) _⟩

theorem Keeps.exists_content (hk : Keeps l s) {f : Fact} (hf : f ∈ (table s.store).facts) :
    ∃ g ∈ l, f.content = g.content := by
  obtain ⟨g, hg, hsame⟩ := List.mem_map.mp (hk.holds.facts.mem_iff.mp (List.mem_map_of_mem hf))
  refine ⟨g, hg, ?_⟩
  rw [← Fact.content_unplaced, ← hsame, Fact.content_unplaced]

theorem Keeps.isNaN (hk : Keeps l s) :
    ∀ c, .condition c ∈ (table s.store).facts → c.severity.isNaN = false := by
  intro c hc
  obtain ⟨g, hg, hcontent⟩ := hk.exists_content hc
  obtain ⟨d, rfl, hseverity⟩ := Fact.condition_of_content hcontent
  rw [hseverity]
  exact hk.severity d hg

theorem ends_recordEvent (hk : Keeps l s) (service : WeatherService) (settings : IngestSettings)
    (e : Event) :
    Ends (recordEvent e) s
      (fun e' t => Keeps (.event e' :: l) t ∧ (Fact.event e').content = (Fact.event e).content)
      (fun error t => Keeps l t ∧ Fails service settings (.event e) s error t) := by
  unfold recordEvent
  refine (ends_rule service settings hk fun _ hv => .event hv).bind fun _ t ht => ?_
  obtain ⟨rfl, -⟩ := ht
  have hrecord := Consolidation.ends_record_steady (f := .event e) (Int.le_refl _) hk.ready hk.holds
  exact (ends_recordFact hk (by simp) hrecord.of_map).of_steady

theorem ends_storeCondition (hk : Keeps l s) {c : DrivingCondition} (hle : c.start ≤ c.stop)
    (hseverity : c.severity.isFinite = true) :
    Ends (onStore .consolidation (Consolidation.recordCondition c)) s
      (fun c' t => Keeps (.condition c' :: l) t ∧
        (Fact.condition c').content = (Fact.condition c).content) (fun _ _ => False) := by
  have hrecord := Consolidation.ends_record_steady (f := .condition c) hle hk.ready hk.holds
  refine ends_recordFact hk (fun d hd => ?_) hrecord.of_map
  rw [← Fact.condition.inj hd]
  exact Binary64.isNaN_of_isFinite hseverity

theorem ends_recordCondition (hk : Keeps l s) (service : WeatherService) (settings : IngestSettings)
    (c : DrivingCondition) :
    Ends (recordCondition c) s
      (fun c' t => Keeps (.condition c' :: l) t ∧
        (Fact.condition c').content = (Fact.condition c).content)
      (fun error t => Keeps l t ∧ Fails service settings (.condition c) s error t) := by
  unfold recordCondition
  refine (ends_rule service settings hk fun _ hv => .condition hv).bind fun _ t ht => ?_
  obtain ⟨rfl, hvalid⟩ := ht
  obtain ⟨hle, hseverity⟩ := Validation.of_condition hvalid
  exact (ends_storeCondition hk hle hseverity).of_steady

theorem ends_storeLocation (hk : Keeps l s) (sample : RawLocation) :
    Ends (onStore .storage (StoreM.persist sample)) s
      (fun k t => Keeps l t ∧ ∃ id, k = { sample with id } ∧
        (∀ kind, (table s.store).get? ⟨kind, id⟩ = none) ∧
        table t.store = (table s.store).put ⟨.rawLocation, id⟩ (.rawLocation k))
      (fun _ _ => False) := by
  refine (StoreM.ends_persist hk.ready sample).focus (fun k t ht => ?_) fun e t he => ?_
  · obtain ⟨hready, id, hrecord, htable, hfresh⟩ := ht
    obtain rfl : k = { sample with id } := Record.rawLocation.inj hrecord
    have hraw : (Stored.toRecord ({ sample with id } : RawLocation)).IsRaw :=
      .inr (.inr (Stored.kind_toRecord _))
    exact ⟨⟨hready, htable ▸ hk.holds.putRaw hraw, hk.severity⟩, id, rfl, hfresh, htable⟩
  · exact absurd he.2.2.2 (by simp)

theorem ends_storeLocations (hk : Keeps l s) (samples : List RawLocation) :
    Ends (samples.mapM fun sample => onStore .storage (StoreM.persist sample)) s
      (fun stored t => (Keeps l t ∧ Stores (table s.store) samples stored (table t.store)) ∧
        t.weather = s.weather)
      (fun _ _ => False) := by
  refine Ends.and_ok (Ends.mapM (I := fun done stored _ t => Keeps l t ∧
    Stores (table s.store) done stored (table t.store))
    (fun done stored sample _ t ht => ?_) ⟨hk, .nil⟩) (weather_mapM_onStore s)
  obtain ⟨hkt, hstores⟩ := ht
  refine (ends_storeLocation hkt sample).imp fun k u hu => ?_
  obtain ⟨hku, id, rfl, hnew, htable⟩ := hu
  exact ⟨hku, htable ▸ hstores.concat hnew⟩

theorem ends_storeConditions {user : String} {conditions : List DrivingCondition} (hk : Keeps l s)
    (h : ∀ c ∈ conditions, Weather.Sensible user c) :
    Ends (conditions.mapM fun c => onStore .consolidation (Consolidation.recordCondition c)) s
      (fun cs t => Keeps (cs.map .condition ++ l) t ∧ (∀ c ∈ cs, c.user = user) ∧
        List.Forall₂ (fun c c' => (Fact.condition c').content = (Fact.condition c).content)
          conditions cs)
      (fun _ _ => False) := by
  have hloop := Ends.mapM (l := conditions) (s := s) (E := fun _ _ => False)
    (f := fun c => onStore (σ := σ) .consolidation (Consolidation.recordCondition c))
    (I := fun done cs rest t => (Keeps (cs.map .condition ++ l) t ∧ (∀ c ∈ cs, c.user = user) ∧
      List.Forall₂ (fun c c' => (Fact.condition c').content = (Fact.condition c).content) done cs) ∧
      ∀ c ∈ rest, Weather.Sensible user c) ?step ⟨⟨hk, by simp, .nil⟩, h⟩
  case step =>
    intro done cs c rest t ⟨⟨hkt, husers, hcontents⟩, hrest⟩
    have hc := hrest c (by simp)
    refine (ends_storeCondition hkt hc.start_le hc.severity).imp fun c' u hu => ?_
    obtain ⟨hku, hcontent⟩ := hu
    have huser : c'.user = user :=
      (congrArg Span.user (Fact.span_eq_of_content hcontent)).trans hc.user_eq
    refine ⟨⟨hku.perm ?_, fun d hd => ?_, List.rel_append hcontents (.cons hcontent .nil)⟩,
      fun d hd => hrest d (by simp [hd])⟩
    · simpa using List.perm_middle.symm
    · rcases List.mem_append.mp hd with hd | hd
      · exact husers d hd
      · rwa [List.mem_singleton.mp hd]
  exact hloop.imp fun _ _ ht => ht.1

/-- A batch is recorded by recording the conditions that it was prepared with. -/
theorem ends_recordLocations_of {Q : List DrivingCondition → Intake σ → Prop} (hk : Keeps l s)
    (service : WeatherService) (settings : IngestSettings) (user : String)
    (samples : List RawLocation)
    (h : ∀ stored conditions t, Prepared service settings l s user samples stored conditions t →
      Ends (conditions.mapM fun c => onStore .consolidation (Consolidation.recordCondition c)) t Q
        (fun _ _ => False)) :
    Ends (recordLocations service settings user samples) s Q
      (fun error t => Keeps l t ∧ Fails service settings (.locations user samples) s error t) := by
  unfold recordLocations
  have hvalid := Ends.forM (I := fun rest t => t = s ∧ ∀ sample ∈ rest, sample ∈ samples)
    (E := fun e t => Keeps l t ∧ Fails service settings (.locations user samples) s e t)
    (f := fun sample => validate (σ := σ) (Validation.location user sample)) (l := samples) (s := s)
    ?step ⟨rfl, fun _ h => h⟩
  case step =>
    rintro sample rest t ⟨rfl, hrest⟩
    refine (ends_rule service settings hk fun _ hv => .location (hrest sample (by simp)) hv).imp
      fun _ _ ht => ?_
    exact ⟨ht.1, fun sample' h => hrest sample' (by simp [h])⟩
  refine hvalid.bind fun _ t₁ h₁ => ?_
  obtain ⟨rfl, -⟩ := h₁
  refine (ends_storeLocations hk samples).of_steady.bind fun stored t₂ h₂ => ?_
  obtain ⟨⟨hk₂, hstores⟩, hcache⟩ := h₂
  have hgenerate := ((Ends.self (Weather.generate service settings.weather user stored) t₂.weather).and
    (Weather.ends_generate service settings.weather user stored t₂.weather)).and
    (Weather.ends_generate_sources service settings.weather user stored t₂.weather)
  have hweather : Ends (onWeather (Weather.generate service settings.weather user stored)) t₂
      (fun cs t => Prepared service settings l t₁ user samples stored cs t)
      (fun error t => Keeps l t ∧ Fails service settings (.locations user samples) t₁ error t) := by
    refine hgenerate.focus (fun cs w hcs => ?_) fun error w he => ?_
    · obtain ⟨⟨hgenerates, hsensible⟩, hsorted, hsources⟩ := hcs
      refine ⟨⟨hk₂.ready, hk₂.holds, hk₂.severity⟩, hstores, hcache ▸ hgenerates, hsensible, hsorted,
        fun c hc => ?_⟩
      obtain ⟨k, hmem, hsource⟩ := hsources c hc
      exact ⟨k, hstores.saved k hmem, hsource⟩
    · exact ⟨⟨hk₂.ready, hk₂.holds, hk₂.severity⟩, .weather hstores (hcache ▸ he.1.1)⟩
  exact hweather.bind fun conditions t₃ h₃ => (h stored conditions t₃ h₃).of_steady

theorem ends_recordLocations (hk : Keeps l s) (service : WeatherService)
    (settings : IngestSettings) (user : String) (samples : List RawLocation) :
    Ends (recordLocations service settings user samples) s
      (fun cs t => Keeps (cs.map .condition ++ l) t ∧
        Answers service settings (.locations user samples) s (.locations cs) t)
      (fun error t => Keeps l t ∧ Fails service settings (.locations user samples) s error t) := by
  refine ends_recordLocations_of hk service settings user samples fun stored conditions t h => ?_
  refine ((ends_storeConditions h.keeps h.sensible).and_ok (weather_mapM_onStore t)).imp
    fun cs u hu => ?_
  obtain ⟨⟨hku, husers, hrecords⟩, hcache⟩ := hu
  exact ⟨hku, .locations h.stores (hcache ▸ h.generates) hrecords husers⟩

theorem Keeps.knows (hk : Keeps l s) : Timeline.Knows true (table s.store) ⟨s.store, []⟩ :=
  ⟨hk.ready, rfl, by simp [LinkCache.get?]⟩

theorem ends_reportTouching (hk : Keeps l s) (service : WeatherService) (settings : IngestSettings)
    (user : String) (start stop : Int) :
    Ends (reportTrips settings user start stop) s
      (fun rs t => (Keeps l t ∧ table t.store = table s.store) ∧
        ∃ trips, Touching (table s.store) ⟨user, start, stop⟩ trips ∧
          trips.Pairwise (fun S T => S.start ≤ T.start) ∧
          List.Forall₂ (ReportOf (table s.store)) trips rs)
      (fun error t => Keeps l t ∧ Fails service settings (.report user start stop) s error t) := by
  unfold reportTrips
  refine (ends_rule service settings hk fun _ hv => .user hv).bind fun _ t₁ ht₁ => ?_
  obtain ⟨rfl, -⟩ := ht₁
  refine (ends_rule service settings hk fun _ hv => .window hv).bind fun _ t₂ ht₂ => ?_
  obtain ⟨rfl, -⟩ := ht₂
  have hreport := Timeline.ends_reportTrips hk.holds.sound.wellFormed hk.knows settings.maxHops user
    start stop
  have keeps : ∀ u : Linked σ, Timeline.Knows true (table t₂.store) u →
      Keeps l { t₂ with store := u.store } := fun u hu =>
    ⟨hu.ready, by rw [hu.table_eq]; exact hk.holds, hk.severity⟩
  refine Ends.focus (s := t₂) hreport (fun rs u h => ⟨⟨keeps u h.2, h.2.table_eq⟩, h.1⟩) fun error u h => ?_
  exact ⟨keeps u h, .timeline h.table_eq⟩

theorem ends_reportTrips (hk : Keeps l s) (service : WeatherService) (settings : IngestSettings)
    (user : String) (start stop : Int) :
    Ends (reportTrips settings user start stop) s
      (fun rs t => Keeps l t ∧ ∀ r ∈ rs, ∃ T ∈ (table s.store).trips, T.user = user ∧
        ReportOf (table s.store) T r) (fun _ t => Keeps l t) := by
  refine (ends_reportTouching hk service settings user start stop).mono (fun rs t ht => ?_)
    fun _ _ he => he.1
  obtain ⟨⟨hkt, -⟩, trips, htouching, -, hall⟩ := ht
  refine ⟨hkt, fun r hr => ?_⟩
  obtain ⟨T, hT, hreport⟩ := (Ends.exists_of_forall₂ hall).1 r hr
  obtain ⟨hmem, htouch⟩ := (htouching.mem_iff T).mp hT
  exact ⟨T, hmem, htouch.1, hreport⟩

theorem ends_answer (hk : Keeps l s) (service : WeatherService) (settings : IngestSettings)
    (call : IngestCall) :
    Ends (answer service settings call) s
      (fun a t => Keeps (a.recorded ++ l) t ∧ Answers service settings call s a t)
      (fun error t => Keeps l t ∧ Fails service settings call s error t) := by
  cases call with
  | event e => exact (ends_recordEvent hk service settings e).map fun _ _ h => ⟨h.1, .event h.2⟩
  | condition c =>
    exact (ends_recordCondition hk service settings c).map fun _ _ h => ⟨h.1, .condition h.2⟩
  | locations user samples =>
    exact (ends_recordLocations hk service settings user samples).map fun _ _ h => h
  | report user start stop =>
    exact (ends_reportTouching hk service settings user start stop).map fun _ _ h => ⟨h.1.1, .report⟩

theorem keeps_serve (hk : Keeps l s) (service : WeatherService) (settings : IngestSettings)
    (calls : List IngestCall) :
    Keeps (recorded (serve service settings calls s).1 ++ l) (serve service settings calls s).2 := by
  induction calls generalizing s l with
  | nil => exact hk
  | cons call rest ih =>
    have hends := ends_answer hk service settings call
    unfold serve
    cases hanswer : answer service settings call s with
    | ok a t =>
      refine (ih (hends.of_eq_ok hanswer).1).perm ?_
      simp only [recorded, List.flatMap_cons, List.append_assoc]
      exact List.perm_append_comm_assoc _ _ _
    | error e t => exact ih (hends.of_eq_error hanswer).1

theorem served_serve (hk : Keeps l s) (service : WeatherService) (settings : IngestSettings)
    (calls : List IngestCall) :
    Served service settings calls s (serve service settings calls s).1
      (serve service settings calls s).2 := by
  induction calls generalizing s l with
  | nil => exact .done s
  | cons call rest ih =>
    have hends := ends_answer hk service settings call
    unfold serve
    cases hanswer : answer service settings call s with
    | ok a t =>
      obtain ⟨hkt, ha⟩ := hends.of_eq_ok hanswer
      exact .accepted hanswer ha (ih hkt)
    | error e t =>
      obtain ⟨hkt, hfails⟩ := hends.of_eq_error hanswer
      exact .failed hanswer hfails (ih hkt)

end keeps

theorem Keeps.of_isRaw {s : Intake Repository} (hready : s.store.Ready true)
    (hraw : s.store.table.IsRaw) : Keeps [] s :=
  ⟨hready, Table.holds_of_isRaw hready.wellFormed hraw, by simp⟩

theorem keeps_of_isRaw (service : WeatherService) (settings : IngestSettings)
    {s₀ : Intake Repository} (hready : s₀.store.Ready true) (hraw : s₀.store.table.IsRaw)
    {calls : List IngestCall} {answers : List (Except IngestError IngestAnswer)}
    {s : Intake Repository} (hserve : serve service settings calls s₀ = (answers, s)) :
    Keeps (recorded answers) s ∧ Served service settings calls s₀ answers s := by
  have hstart := Keeps.of_isRaw hready hraw
  have hk := keeps_serve hstart service settings calls
  have hserved := served_serve hstart service settings calls
  rw [hserve] at hk hserved
  rw [List.append_nil] at hk
  exact ⟨hk, hserved⟩

/-- On a repository that holds raw records only and has ids that never repeat, whatever calls have
been made: the segments of a reported trip follow one another over all of it, and the one over a
moment lists what has been recorded for the user and is active then. -/
theorem reports_eq_recorded (service : WeatherService) (settings : IngestSettings)
    {s₀ : Intake Repository} (hready : s₀.store.Ready true) (hraw : s₀.store.table.IsRaw)
    {calls : List IngestCall} {answers : List (Except IngestError IngestAnswer)}
    {s : Intake Repository} (hserve : serve service settings calls s₀ = (answers, s))
    {user : String} {start stop : Int} {reports : List TripReport} {s' : Intake Repository}
    (hreport : reportTrips settings user start stop s = .ok reports s') :
    ∀ r ∈ reports,
      (⟨r.trip, user, r.start, r.stop⟩ : Trip) ∈ s.store.table.trips ∧
      Tiles r.start r.stop r.segments ∧ (r.start = r.stop → r.segments = []) ∧
      ∀ time, r.start ≤ time → time < r.stop →
        (∀ c, IsNoted (recorded answers) user time c →
          ∃ url, LinkOf s.store.table c.source url) ∧
        ∃ seg ∈ r.segments, (seg.start ≤ time ∧ time ≤ seg.stop) ∧
          ActiveCondition.Lists seg.active
            (notedAt s.store.table (recorded answers) user time) := by
  intro r hr
  obtain ⟨hk, -⟩ := keeps_of_isRaw service settings hready hraw hserve
  obtain ⟨-, hreports⟩ := (ends_reportTrips hk service settings user start stop).of_eq_ok hreport
  obtain ⟨T, hT, rfl, hreportOf⟩ := hreports r hr
  have hholds : s.store.table.Holds [] ((recorded answers).map Fact.unplaced) := hk.holds
  obtain ⟨htiles, hlists⟩ := hreportOf.lists hholds.sound hholds.accounted hk.isNaN hT
  refine ⟨?_, htiles, fun heq => (heq ▸ htiles).eq_nil, fun time hlo hhi => ?_⟩
  · rw [hreportOf.trip, hreportOf.start, hreportOf.stop]
    exact hT
  · obtain ⟨seg, hseg, hover⟩ := htiles.exists_mem hlo hhi
    obtain ⟨hlinks, hlist⟩ := hlists seg hseg time hover.1 hover.2
    refine ⟨fun c hc => ?_, seg, hseg, hover, ?_⟩
    · have hfacts : ∀ f ∈ recorded answers, ∃ g ∈ s.store.table.facts, g.unplaced = f.unplaced :=
        fun f hf => List.mem_map.mp (hholds.facts.mem_iff.mpr (List.mem_map_of_mem hf))
      obtain ⟨d, hd, -, -, hsource⟩ := hc.of_unplaced hfacts
      exact hsource ▸ hlinks d hd
    · rwa [← notedAt_congr hholds.facts]

def sampleIntake : Intake Repository where
  store :=
    { table := [(⟨.rawVideo, "v"⟩, .rawVideo ⟨"v", "ann", 1, 9, "drive.mp4"⟩)]
      writesLeft := none
      idAt := Repository.unaryId
      created := 0 }
  weather := {}

def sampleService : WeatherService := fun _ _ _ => .error (.service "closed")

def sampleServed : List (Except IngestError IngestAnswer) × Intake Repository :=
  serve sampleService {} [.condition ⟨"", "ann", "", .rain, ⟨0⟩, 2, 5, ⟨.rawVideo, "v"⟩⟩] sampleIntake

def sampleReports : List TripReport :=
  match reportTrips {} "ann" 0 9 sampleServed.2 with
  | .ok reports _ => reports
  | .error _ _ => []

theorem sampleIntake_ready : sampleIntake.store.Ready true where
  wellFormed := ⟨by simp [sampleIntake], by simp [sampleIntake, Record.key, Record.kind, Record.id]⟩
  injective _ _ _ _ h := Repository.unaryId_injective h
  fresh n _ kind := by
    have hid : "v" ≠ Repository.unaryId n := fun h => by
      have hlist : ['v'] = List.replicate n 'i' := by
        simpa [Repository.unaryId] using congrArg String.toList h
      have hmem : 'v' ∈ List.replicate n 'i' := hlist ▸ List.mem_singleton_self 'v'
      simp at hmem
    simp [sampleIntake, Table.get?, hid]
  unlimited _ := rfl

theorem sampleIntake_isRaw : sampleIntake.store.table.IsRaw := by
  simp [sampleIntake, Table.IsRaw, Record.IsRaw, Record.kind]

theorem reports_eq_recorded_of_sample :
    sampleIntake.store.Ready true ∧ sampleIntake.store.table.IsRaw ∧
      ∃ reports s, reportTrips {} "ann" 0 9 sampleServed.2 = .ok reports s ∧
        reports.length = 1 ∧ ∀ r ∈ reports, Tiles r.start r.stop r.segments := by
  have hraw : sampleIntake.store.table.IsRaw := by
    simp [sampleIntake, Table.IsRaw, Record.IsRaw, Record.kind]
  have hok : sampleReports.length = 1 := by decide +kernel
  refine ⟨sampleIntake_ready, hraw, ?_⟩
  cases hreport : reportTrips {} "ann" 0 9 sampleServed.2 with
  | ok reports s =>
    have hlength : reports.length = 1 := by simpa [sampleReports, hreport] using hok
    exact ⟨reports, s, rfl, hlength, fun r hr =>
      (reports_eq_recorded sampleService {} sampleIntake_ready hraw rfl hreport r hr).2.1⟩
  | error e s => simp [sampleReports, hreport] at hok

end Ingest

end DriveLog
