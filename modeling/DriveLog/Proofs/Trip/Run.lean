import DriveLog.Proofs.Trip.Components
set_option autoImplicit false

namespace DriveLog
open LawfulStore (table Ready)

section steady
variable {σ : Type} [RecordStore σ] [LawfulStore σ] {s : σ} {l : List Fact} {f : Fact}

theorem Table.Holds.perm {t : Table} {pending : List Span} {m : List Fact} (h : t.Holds pending l)
    (hlm : l.Perm m) : t.Holds pending m := ⟨h.sound, h.accounted, h.facts.trans hlm⟩

theorem Table.Accounted.not_blocked {t : Table} {error : ConsolidationError}
    (h : t.Accounted []) : ¬ f.Blocked t error := by
  rintro ⟨-, S, hS, T, hT, hin, -⟩
  obtain ⟨s, hs, -⟩ := h.leftover S hS T hT hin
  simp at hs

theorem Consolidation.ends_record_steady (hle : f.span.start ≤ f.span.stop) (h : Ready true s)
    (hk : (table s).Holds [] l) :
    Ends f.record s
      (fun g t => Ready true t ∧ (table t).Holds [] (g.unplaced :: l) ∧ g.content = f.content)
      (fun _ _ => False) := by
  have hnone : ∀ s ∈ ([] : List Span), s = f.span ∨ s ∈ ([] : List Span) := by simp
  have hrecord := ends_record hnone hle h hk
  refine hrecord.mono (fun g t hg => ⟨hg.1, hg.2.1, hg.2.2.2⟩) fun error t he => ?_
  rcases he.2.2 with hinjected | hblocked
  · exact absurd hinjected.2 (by simp)
  · exact hk.accounted.not_blocked hblocked

theorem Consolidation.ends_recordAll {calls : List Fact}
    (hle : ∀ f ∈ calls, f.span.start ≤ f.span.stop) (h : Ready true s) (hk : (table s).Holds [] []) :
    Ends (calls.mapM Fact.record) s
      (fun recorded t => Ready true t ∧ (table t).Holds [] (recorded.map Fact.unplaced) ∧
        recorded.map Fact.content = calls.map Fact.content)
      (fun _ _ => False) := by
  have hloop := Ends.mapM (f := Fact.record (σ := σ)) (E := fun _ _ => False) (l := calls) (s := s)
    (I := fun done recorded rest t => Ready true t ∧
      (table t).Holds [] (recorded.map Fact.unplaced) ∧
      recorded.map Fact.content = done.map Fact.content ∧
      ∀ f ∈ rest, f.span.start ≤ f.span.stop) ?step ⟨h, hk, rfl, hle⟩
  case step =>
    intro done recorded f rest t ⟨ht, hkt, hdone, hrest⟩
    refine (ends_record_steady (hrest f (by simp)) ht hkt).imp fun g u hg => ?_
    obtain ⟨hready, hku, hcontent⟩ := hg
    refine ⟨hready, hku.perm ?_, by simp [hdone, hcontent], fun f hf => hrest f (by simp [hf])⟩
    rw [List.map_append]
    exact (List.perm_append_singleton _ _).symm
  exact hloop.imp fun _ _ ht => ⟨ht.1, ht.2.1, ht.2.2.1⟩

end steady

variable {calls : List Fact}

/-- Events are over at once, so that only conditions have to be ordered. -/
theorem span_le_of_condition (hle : ∀ d, .condition d ∈ calls → d.start ≤ d.stop) :
    ∀ f ∈ calls, f.span.start ≤ f.span.stop := by
  intro f hf
  cases f with
  | event e => exact Int.le_refl _
  | condition d => exact hle d hf

theorem recordAll_empty {idAt : Nat → String} (hid : Function.Injective idAt)
    (hle : ∀ d, .condition d ∈ calls → d.start ≤ d.stop) :
    ∃ recorded repo, calls.mapM Fact.record (Repository.empty idAt) = .ok recorded repo ∧
      recorded.map Fact.content = calls.map Fact.content ∧
      repo.table.Holds [] (recorded.map Fact.unplaced) := by
  have hready : Ready true (Repository.empty idAt) := Repository.ready_empty hid
  have hends := Consolidation.ends_recordAll (span_le_of_condition hle) hready Table.holds_nil
  obtain ⟨recorded, repo, hrun, -, hk, hcontent⟩ := hends.eq_ok
  exact ⟨recorded, repo, hrun, hcontent, hk⟩

/-- Recorded on an empty repository, facts end up in the trips that are their components, and in no
other order or under other ids would the trips be different. -/
theorem trips_eq_components {idAt : Nat → String} (hid : Function.Injective idAt)
    (hle : ∀ d, .condition d ∈ calls → d.start ≤ d.stop) :
    ∃ recorded repo, calls.mapM Fact.record (Repository.empty idAt) = .ok recorded repo ∧
      recorded.map Fact.content = calls.map Fact.content ∧ repo.table.Settled recorded ∧
      ∀ (idAt' : Nat → String) (calls' : List Fact), Function.Injective idAt' →
        calls'.Perm calls → ∃ recorded' repo',
          calls'.mapM Fact.record (Repository.empty idAt') = .ok recorded' repo' ∧
          repo'.table.groups = repo.table.groups := by
  obtain ⟨recorded, repo, hrun, hcontent, hk⟩ := recordAll_empty hid hle
  refine ⟨recorded, repo, hrun, hcontent, hk.settled, fun idAt' calls' hid' hperm => ?_⟩
  have hle' : ∀ d, .condition d ∈ calls' → d.start ≤ d.stop := fun d hd =>
    hle d (hperm.mem_iff.mp hd)
  obtain ⟨recorded', repo', hrun', hcontent', hk'⟩ := recordAll_empty hid' hle'
  refine ⟨recorded', repo', hrun', hk'.groups_eq hk ?_⟩
  simp only [List.map_map, Function.comp_def, Fact.content_unplaced]
  rw [hcontent, hcontent']
  exact hperm.map Fact.content

def sampleCalls : List Fact :=
  [.event ⟨"", "ann", "", 5, .laneChange, ⟨0⟩, ⟨0⟩, ⟨.rawVideo, "v"⟩⟩,
    .condition ⟨"", "bob", "", .snow, ⟨0⟩, 3, 3, ⟨.rawVideo, "w"⟩⟩,
    .condition ⟨"", "ann", "", .rain, ⟨0⟩, 2, 5, ⟨.rawVideo, "v"⟩⟩]

theorem trips_eq_components_of_sample :
    Function.Injective Repository.unaryId ∧
      (∀ d, .condition d ∈ sampleCalls → d.start ≤ d.stop) ∧
      ∃ recorded repo,
        sampleCalls.mapM Fact.record (Repository.empty Repository.unaryId) = .ok recorded repo ∧
        repo.table.Settled recorded := by
  have hle : ∀ d, .condition d ∈ sampleCalls → d.start ≤ d.stop := by simp [sampleCalls]
  obtain ⟨recorded, repo, hrun, -, hsettled, -⟩ :=
    trips_eq_components Repository.unaryId_injective hle
  exact ⟨Repository.unaryId_injective, hle, recorded, repo, hrun, hsettled⟩

end DriveLog
