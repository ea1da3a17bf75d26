import DriveLog.Proofs.Trip.Run
import Mathlib.Data.List.Induction
/-!
Recording on a store whose reads and writes fail. Whatever fails and whatever is called in between,
no recorded fact is lost and trips stay nested; and once every call has been made again until it
succeeded, the trips are those of a run without failures.
-/
set_option autoImplicit false

namespace DriveLog
open LawfulStore (table Ready)

/-- The reads and the writes that still succeed in a call; all do if there is no number. A call ends
at the first one that fails. -/
structure Disturbance where
  reads : Option Nat
  writes : Option Nat
  deriving DecidableEq, Repr

namespace Interrupted

def disturb (d : Disturbance) (s : Interrupted) : Interrupted :=
  d.reads.elim id failReadsAfter (d.writes.elim id failWritesAfter s.clearFailures)

theorem Ready.disturb {s : Interrupted} (h : s.Ready false) (d : Disturbance) :
    (s.disturb d).Ready false ∧ (s.disturb d).table = s.table := by
  have hcleared : s.repository.clearFailures.Ready false :=
    ⟨h.repository.wellFormed, h.repository.injective, h.repository.fresh, by simp⟩
  have hwrites : ∀ n, (s.repository.clearFailures.failWritesAfter n).Ready false := fun n =>
    ⟨h.repository.wellFormed, h.repository.injective, h.repository.fresh, by simp⟩
  obtain ⟨reads, writes⟩ := d
  cases reads with
  | none =>
    cases writes with
    | none => exact ⟨ready_ofRepository hcleared, rfl⟩
    | some n => exact ⟨ready_ofRepository (hwrites n), rfl⟩
  | some m =>
    cases writes with
    | none => exact ⟨⟨hcleared, by simp, rfl, rfl⟩, rfl⟩
    | some n => exact ⟨⟨hwrites n, by simp, rfl, rfl⟩, rfl⟩

variable {κ : Type}

def attempts (call : κ → Fact) :
    List (κ × Disturbance) → Interrupted → List (κ × Except ConsolidationError Fact) × Interrupted
  | [], s => ([], s)
  | (k, d) :: rest, s =>
    match (call k).record (s.disturb d) with
    | .ok g t => ((k, .ok g) :: (attempts call rest t).1, (attempts call rest t).2)
    | .error e t => ((k, .error e) :: (attempts call rest t).1, (attempts call rest t).2)

def recorded (outcomes : List (κ × Except ConsolidationError Fact)) : List Fact :=
  outcomes.filterMap fun o => o.2.toOption

/-- The calls that have failed when they were last made, besides those that were `pending` before. -/
def pendingAfter [DecidableEq κ] (pending : List κ)
    (outcomes : List (κ × Except ConsolidationError Fact)) : List κ :=
  outcomes.foldl (fun p o => if o.2.isOk then p.filter (· ≠ o.1) else o.1 :: p) pending

section holds
variable [DecidableEq κ] (call : κ → Fact) {s : Interrupted} {l : List Fact} {pending : List κ}

theorem ends_attempt {k : κ} (hle : (call k).span.start ≤ (call k).span.stop) (d : Disturbance)
    (h : s.Ready false) (hk : s.table.Holds (pending.map fun k => (call k).span) l) :
    Ends (call k).record (s.disturb d)
      (fun g t => t.Ready false ∧ g.content = (call k).content ∧
        t.table.Holds ((pending.filter (· ≠ k)).map fun k => (call k).span) (g.unplaced :: l))
      (fun e t => t.Ready false ∧ (e.IsInjected ∨ (call k).Blocked s.table e) ∧
        t.table.Holds ((k :: pending).map fun k => (call k).span) l) := by
  obtain ⟨hready, htable⟩ := h.disturb d
  have hpending : ∀ s ∈ pending.map fun k => (call k).span, s = (call k).span ∨
      s ∈ (pending.filter (· ≠ k)).map fun k => (call k).span := by
    intro s hs
    obtain ⟨k', hk', rfl⟩ := List.mem_map.mp hs
    by_cases hkk : k' = k
    · exact .inl (by rw [hkk])
    · exact .inr (List.mem_map.mpr ⟨k', by simp [hk', hkk], rfl⟩)
  rw [← htable] at hk ⊢
  refine (Consolidation.ends_record hpending hle hready hk).mono (fun g t hg => ?_) fun e t he => ?_
  · exact ⟨hg.1, hg.2.2.2, hg.2.1⟩
  · exact ⟨he.1, he.2.2.imp_left And.left, he.2.1⟩

/-- What a run of calls keeps of facts, and which of its calls are pending at its end. -/
theorem holds_attempts {as : List (κ × Disturbance)}
    (hle : ∀ a ∈ as, (call a.1).span.start ≤ (call a.1).span.stop) (h : s.Ready false)
    (hk : s.table.Holds (pending.map fun k => (call k).span) l) :
    (attempts call as s).2.Ready false ∧
      (attempts call as s).2.table.Holds
        ((pendingAfter pending (attempts call as s).1).map fun k => (call k).span)
        ((recorded (attempts call as s).1).map Fact.unplaced ++ l) ∧
      (attempts call as s).1.map Prod.fst = as.map Prod.fst ∧
      ∀ o ∈ (attempts call as s).1, ∀ g, o.2 = .ok g → g.content = (call o.1).content := by
  induction as generalizing s l pending with
  | nil => exact ⟨h, hk, rfl, by simp [attempts]⟩
  | cons a rest ih =>
    obtain ⟨k, d⟩ := a
    have hrest : ∀ a ∈ rest, (call a.1).span.start ≤ (call a.1).span.stop := fun a ha =>
      hle a (by simp [ha])
    have hends := ends_attempt call (hle (k, d) (by simp)) d h hk
    unfold attempts
    cases hrun : (call k).record (s.disturb d) with
    | ok g t =>
      obtain ⟨hready, hcontent, hkt⟩ := hends.of_eq_ok hrun
      obtain ⟨hready', hk', hlabels, hcontents⟩ := ih hrest hready hkt
      refine ⟨hready', hk'.perm ?_, by simp [hlabels], ?_⟩
      · exact List.perm_middle
      · simpa [hcontent] using hcontents
    | error e t =>
      obtain ⟨hready, -, hkt⟩ := hends.of_eq_error hrun
      obtain ⟨hready', hk', hlabels, hcontents⟩ := ih hrest hready hkt
      exact ⟨hready', hk', by simp [hlabels], by simpa using hcontents⟩

end holds

/-- What holds of the store however many calls have failed, `recorded` being the facts of those that
have succeeded. -/
structure Safe (s : Interrupted) (recorded : List Fact) : Prop where
  stored : (s.table.facts.map Fact.unplaced).Perm (recorded.map Fact.unplaced)
  placed : ∀ f ∈ s.table.facts, ∃ T ∈ s.table.trips, T.id = f.trip ∧ T.user = f.user
  nested : ∀ S ∈ s.table.trips, ∀ T ∈ s.table.trips, S.id ≠ T.id → S.span.Touches T.span →
    S.Inside T ∨ T.Inside S
  empty : ∀ S ∈ s.table.trips, ∀ T ∈ s.table.trips, S.Inside T → ∀ f ∈ s.table.facts, f.trip ≠ S.id

variable {idAt : Nat → String}

theorem safe_of_holds {s : Interrupted} {pending : List Span} {recorded : List Fact}
    (h : s.table.Holds pending (recorded.map Fact.unplaced)) : s.Safe recorded :=
  ⟨h.facts, h.sound.placed, h.sound.nested, h.sound.empty⟩

theorem ready_start (hid : Function.Injective idAt) :
    (ofRepository (Repository.empty idAt)).Ready false :=
  ready_ofRepository ⟨Table.wellFormed_nil, fun _ _ _ _ h => hid h, fun _ _ _ => rfl, by simp⟩

/-- Whatever calls are made and wherever they fail, the facts of the calls that have succeeded are
there, in trips of their users; trips of a user that meet are one inside the other, the inner one
without facts; and a further call fails by a failure of the store alone, but for an event that is in
an inner trip. -/
theorem attempts_safe (hid : Function.Injective idAt) {as : List (Fact × Disturbance)}
    (hle : ∀ d, .condition d ∈ as.map Prod.fst → d.start ≤ d.stop) {s : Interrupted}
    {outcomes : List (Fact × Except ConsolidationError Fact)}
    (hrun : attempts id as (ofRepository (Repository.empty idAt)) = (outcomes, s)) :
    outcomes.map Prod.fst = as.map Prod.fst ∧
      (∀ o ∈ outcomes, ∀ g, o.2 = .ok g → g.content = o.1.content) ∧ s.Safe (recorded outcomes) ∧
      ∀ (f : Fact) (d : Disturbance) (e : ConsolidationError) (t : Interrupted),
        f.span.start ≤ f.span.stop → f.record (s.disturb d) = .error e t →
          e.IsInjected ∨ f.Blocked s.table e := by
  have hspan : ∀ a ∈ as, (id a.1 : Fact).span.start ≤ (id a.1 : Fact).span.stop := fun a ha =>
    span_le_of_condition hle a.1 (List.mem_map_of_mem ha)
  have hstart : Table.Holds (([] : List Fact).map fun f => (id f : Fact).span) [] [] :=
    Table.holds_nil
  have hend := holds_attempts id hspan (ready_start hid) hstart
  rw [hrun] at hend
  obtain ⟨hready, hk, hlabels, hcontents⟩ := hend
  rw [List.append_nil] at hk
  refine ⟨hlabels, hcontents, safe_of_holds hk, fun f d e t hf hfail => ?_⟩
  exact ((ends_attempt id hf d hready hk).of_eq_error hfail).2.1

def sampleFailures : List (Fact × Disturbance) := sampleCalls.map fun f => (f, ⟨none, some 1⟩)

theorem attempts_safe_of_sample :
    (∀ d, .condition d ∈ sampleFailures.map Prod.fst → d.start ≤ d.stop) ∧
      ∃ outcomes s, attempts id sampleFailures (ofRepository (Repository.empty Repository.unaryId)) =
        (outcomes, s) ∧ s.Safe (recorded outcomes) := by
  have hle : ∀ d, .condition d ∈ sampleFailures.map Prod.fst → d.start ≤ d.stop := by
    simp [sampleFailures, sampleCalls]
  exact ⟨hle, _, _, rfl, (attempts_safe Repository.unaryId_injective hle rfl).2.2.1⟩

section converging
variable {κ : Type} [DecidableEq κ] {outcomes : List (κ × Except ConsolidationError Fact)} {k : κ}

/-- The call is made until it succeeds: it fails some times, and not the last time. -/
def Succeeds (outcomes : List (κ × Except ConsolidationError Fact)) (k : κ) : Prop :=
  ∃ failures, (outcomes.filter (·.1 = k)).map (·.2.isOk) = List.replicate failures false ++ [true]

theorem pendingAfter_concat (o : κ × Except ConsolidationError Fact) :
    pendingAfter [] (outcomes ++ [o]) =
      if o.2.isOk then (pendingAfter [] outcomes).filter (· ≠ o.1)
      else o.1 :: pendingAfter [] outcomes := by
  simp only [pendingAfter, List.foldl_append, List.foldl_cons, List.foldl_nil]

theorem getLast?_of_pendingAfter (h : k ∈ pendingAfter [] outcomes) :
    ((outcomes.filter (·.1 = k)).map (·.2.isOk)).getLast? = some false := by
  -- from the end on, as the last outcome of a call decides
  induction outcomes using List.reverseRecOn with
  | nil => simp [pendingAfter] at h
  | append_singleton os o ih =>
    rw [pendingAfter_concat] at h
    cases hok : o.2.isOk with
    | true =>
      have hmem : k ∈ pendingAfter [] os ∧ k ≠ o.1 := by simpa [hok] using h
      simpa [hmem.2.symm] using ih hmem.1
    | false =>
      by_cases hk : k = o.1
      · simp [hk, hok]
      · have hmem : k ∈ pendingAfter [] os := by simpa [hok, hk] using h
        simpa [Ne.symm hk] using ih hmem

theorem pendingAfter_eq_nil (h : ∀ k, Succeeds outcomes k) : pendingAfter [] outcomes = [] := by
  refine List.eq_nil_iff_forall_not_mem.mpr fun k hk => ?_
  have hlast := getLast?_of_pendingAfter hk
  obtain ⟨failures, hk⟩ := h k
  rw [hk] at hlast
  simp at hlast

theorem count_succeeded (h : Succeeds outcomes k) :
    ((outcomes.filter (·.2.isOk)).map Prod.fst).count k = 1 := by
  obtain ⟨failures, hk⟩ := h
  have hok : ((outcomes.filter (·.1 = k)).map (·.2.isOk)).countP id = 1 := by
    rw [hk, List.countP_append]
    simp [List.countP_replicate]
  rw [List.count_eq_countP, List.countP_map, List.countP_filter]
  rw [List.countP_map, List.countP_filter] at hok
  rw [← hok]
  refine List.countP_congr fun o _ => ?_
  simp [and_comm]

omit [DecidableEq κ] in
theorem recorded_content {call : κ → Fact}
    (h : ∀ o ∈ outcomes, ∀ g, o.2 = .ok g → g.content = (call o.1).content) :
    (recorded outcomes).map Fact.content =
      ((outcomes.filter (·.2.isOk)).map Prod.fst).map fun k => (call k).content := by
  induction outcomes with
  | nil => rfl
  | cons o os ih =>
    obtain ⟨k, o⟩ := o
    have hos := ih fun o ho => h o (by simp [ho])
    cases o with
    | ok g =>
      have hg := h (k, .ok g) (by simp) g rfl
      exact congrArg₂ List.cons hg hos
    | error e => exact hos

end converging

/-- Once every call has succeeded, whatever failed before and in between, the trips are those that
the calls make without failures. -/
theorem attempts_converge (hid : Function.Injective idAt) {calls : List Fact}
    (hle : ∀ d, .condition d ∈ calls → d.start ≤ d.stop)
    {as : List (Fin calls.length × Disturbance)} {s : Interrupted}
    {outcomes : List (Fin calls.length × Except ConsolidationError Fact)}
    (hrun : attempts calls.get as (ofRepository (Repository.empty idAt)) = (outcomes, s))
    (hdone : ∀ k, Succeeds outcomes k) :
    ((recorded outcomes).map Fact.content).Perm (calls.map Fact.content) ∧
      s.table.Settled (recorded outcomes) ∧
      ∃ answers repo, calls.mapM Fact.record (Repository.empty idAt) = .ok answers repo ∧
        s.table.groups = repo.table.groups := by
  have hspan : ∀ a ∈ as, (calls.get a.1).span.start ≤ (calls.get a.1).span.stop := fun a _ =>
    span_le_of_condition hle _ (List.get_mem calls a.1)
  have hstart : Table.Holds (([] : List (Fin calls.length)).map fun k => (calls.get k).span) [] [] :=
    Table.holds_nil
  have hend := holds_attempts calls.get hspan (ready_start hid) hstart
  rw [hrun] at hend
  obtain ⟨-, hk, -, hcontents⟩ := hend
  rw [List.append_nil, pendingAfter_eq_nil hdone] at hk
  have hlabels : ((outcomes.filter (·.2.isOk)).map Prod.fst).Perm (List.finRange calls.length) := by
    refine List.perm_iff_count.mpr fun k => ?_
    rw [count_succeeded (hdone k)]
    exact (List.count_eq_one_of_mem (List.nodup_finRange _) (List.mem_finRange k)).symm
  have hcalls : ((recorded outcomes).map Fact.content).Perm (calls.map Fact.content) := by
    rw [recorded_content hcontents]
    have hget := congrArg (List.map Fact.content) (List.map_get_finRange calls)
    rw [List.map_map] at hget
    exact (hlabels.map _).trans (.of_eq hget)
  obtain ⟨answers, repo, hans, hcontent, hrepo⟩ := recordAll_empty hid hle
  refine ⟨hcalls, hk.settled, answers, repo, hans, hk.groups_eq hrepo ?_⟩
  simp only [List.map_map, Function.comp_def, Fact.content_unplaced]
  rwa [hcontent]

def sampleRetries : List (Fin sampleCalls.length × Disturbance) :=
  [(⟨2, by decide⟩, ⟨none, some 1⟩), (⟨0, by decide⟩, ⟨some 0, none⟩),
    (⟨1, by decide⟩, ⟨none, none⟩), (⟨0, by decide⟩, ⟨none, none⟩), (⟨2, by decide⟩, ⟨none, none⟩)]

def sampleRun : List (Fin sampleCalls.length × Except ConsolidationError Fact) × Interrupted :=
  attempts sampleCalls.get sampleRetries (ofRepository (Repository.empty Repository.unaryId))

theorem attempts_converge_of_sample :
    (∀ d, .condition d ∈ sampleCalls → d.start ≤ d.stop) ∧ (∀ k, Succeeds sampleRun.1 k) ∧
      sampleRun.2.table.Settled (recorded sampleRun.1) := by
  have hle : ∀ d, .condition d ∈ sampleCalls → d.start ≤ d.stop := by simp [sampleCalls]
  have hfailures : ∀ k : Fin sampleCalls.length,
      (sampleRun.1.filter (·.1 = k)).map (·.2.isOk) =
        List.replicate (if k.val = 1 then 0 else 1) false ++ [true] := by decide +kernel
  have hdone : ∀ k, Succeeds sampleRun.1 k := fun k => ⟨_, hfailures k⟩
  exact ⟨hle, hdone, (attempts_converge Repository.unaryId_injective hle rfl hdone).2.1⟩

end Interrupted

end DriveLog
