import DriveLog.Proofs.Store.Frame
set_option autoImplicit false

namespace DriveLog
namespace Repository

structure SameIds (repo t : Repository) : Prop where
  idAt : t.idAt = repo.idAt
  created : t.created = repo.created

structure Issues (repo : Repository) (id : String) (t : Repository) : Prop where
  id_eq : id = repo.idAt repo.created
  idAt : t.idAt = repo.idAt
  created : t.created = repo.created + 1

variable {repo t u : Repository} {id : String}

theorem SameIds.refl (repo : Repository) : repo.SameIds repo := ⟨rfl, rfl⟩

theorem SameIds.symm (h : repo.SameIds t) : t.SameIds repo := ⟨h.idAt.symm, h.created.symm⟩

theorem SameIds.trans (h : repo.SameIds t) (h' : t.SameIds u) : repo.SameIds u :=
  ⟨h'.idAt.trans h.idAt, h'.created.trans h.created⟩

theorem SameIds.issues (h : repo.SameIds t) (h' : t.Issues id u) : repo.Issues id u where
  id_eq := by rw [h'.id_eq, h.idAt, h.created]
  idAt := h'.idAt.trans h.idAt
  created := by rw [h'.created, h.created]

theorem Issues.sameIds (h : repo.Issues id t) (h' : t.SameIds u) : repo.Issues id u :=
  ⟨h.id_eq, h'.idAt.trans h.idAt, h'.created.trans h.created⟩

theorem Issues.unique {id' : String} (h : repo.Issues id t) (h' : repo.Issues id' u) :
    id = id' ∧ t.SameIds u where
  left := h.id_eq.trans h'.id_eq.symm
  right := ⟨h'.idAt.trans h.idAt.symm, h'.created.trans h.created.symm⟩

theorem throughout_chargeWrite : Throughout SameIds chargeWrite := by
  intro repo
  unfold chargeWrite
  refine Ends.get_bind ?_
  split
  · exact SameIds.refl repo
  · exact SameIds.refl repo
  · exact SameIds.mk rfl rfl

theorem throughout_insert (id : String) (r : Record) : Throughout SameIds (insert id r) := by
  unfold insert
  refine .bind (fun _ _ _ => .trans) throughout_chargeWrite fun _ repo => Ends.get_bind ?_
  split
  · exact SameIds.refl repo
  · exact SameIds.mk rfl rfl

theorem throughout_erase (kind : RecordKind) (id : String) : Throughout SameIds (erase kind id) := by
  unfold erase
  refine .bind (fun _ _ _ => .trans) throughout_chargeWrite fun _ repo => Ends.get_bind ?_
  split
  · exact SameIds.refl repo
  · exact SameIds.mk rfl rfl

theorem ends_create_issues (repo : Repository) (r : Record) :
    Ends (create r) repo (fun id t => repo.Issues id t) (fun _ t => repo.SameIds t) := by
  unfold create
  refine (throughout_chargeWrite repo).bind fun _ t ht => Ends.get_bind (Ends.set_bind (Ends.pure ?_))
  exact ht.issues ⟨rfl, rfl, rfl⟩

end Repository

namespace Interrupted
open Repository (SameIds Issues)
variable {s t : Interrupted} {α : Type}

def SameIds (s t : Interrupted) : Prop := s.repository.SameIds t.repository

def Issues (s : Interrupted) (id : String) (t : Interrupted) : Prop :=
  s.repository.Issues id t.repository

theorem throughout_onRepository {act : StoreM Repository α} (h : Throughout Repository.SameIds act) :
    Throughout SameIds (onRepository act) :=
  fun s => (h s.repository).focus (fun _ _ ht => ht) fun _ _ ht => ht

theorem throughout_chargeRead : Throughout SameIds chargeRead := by
  intro s
  unfold chargeRead
  refine Ends.get_bind ?_
  split
  · exact Repository.SameIds.refl _
  · exact Repository.SameIds.refl _
  · exact Repository.SameIds.refl s.repository

theorem keptByReads_sameIds : KeptByReads SameIds where
  refl s := .refl s.repository
  trans _ _ _ := .trans
  listIds kind query := by
    refine .bind (fun _ _ _ => .trans) throughout_chargeRead fun _ s => Ends.get_bind ?_
    split
    · refine throughout_onRepository ?_ s
      exact fun repo => Repository.SameIds.refl repo
    · exact Repository.SameIds.refl s.repository
  get? kind id := by
    refine .bind (fun _ _ _ => .trans) throughout_chargeRead fun _ s => Ends.get_bind ?_
    split
    · exact Repository.SameIds.refl s.repository
    · refine throughout_onRepository ?_ s
      exact fun repo => Repository.SameIds.refl repo

theorem throughout_put [Stored α] (a : α) : Throughout SameIds (StoreM.put a) :=
  throughout_onRepository (Repository.throughout_insert _ _)

theorem throughout_erase [Stored α] (id : String) :
    Throughout SameIds (StoreM.erase (σ := Interrupted) α id) :=
  throughout_onRepository (Repository.throughout_erase _ _)

theorem ends_persist_issues [Stored α] [Stored.Lawful α] (s : Interrupted) (a : α) :
    Ends (StoreM.persist a) s (fun a' t => Issues s (Stored.toRecord a').id t)
      (fun _ t => SameIds s t) := by
  have hcreate : Ends (RecordStore.create (Stored.toRecord a)) s
      (fun id t => Issues s id t) (fun _ t => SameIds s t) :=
    (Repository.ends_create_issues s.repository (Stored.toRecord a)).focus (fun _ _ ht => ht)
      fun _ _ ht => ht
  refine hcreate.bind fun id t ht => ?_
  obtain ⟨a', ha'⟩ := Stored.exists_withId a id
  rw [ha', StoreM.decode_toRecord]
  refine Ends.pure ?_
  rwa [← ha', Record.id_withId]

end Interrupted
end DriveLog
