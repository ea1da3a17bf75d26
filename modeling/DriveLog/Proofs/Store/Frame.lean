import DriveLog.Proofs.Store.Law
set_option autoImplicit false

namespace DriveLog

/-- All records but those with a key in `K` are the same. -/
def Table.SameBut (K : RecordKey → Prop) (t u : Table) : Prop :=
  ∀ k, ¬ K k → u.get? k = t.get? k

def Table.Kept (t u : Table) : Prop := ∀ k r, t.get? k = some r → u.get? k = some r

namespace Table.SameBut
variable {K : RecordKey → Prop} {t u v : Table}

theorem refl (K : RecordKey → Prop) (t : Table) : t.SameBut K t := fun _ _ => rfl

theorem trans (h : t.SameBut K u) (h' : u.SameBut K v) : t.SameBut K v :=
  fun k hk => (h' k hk).trans (h k hk)

theorem put {k : RecordKey} (hk : K k) (t : Table) (r : Record) : t.SameBut K (t.put k r) :=
  fun _ hl => Table.get?_put_of_ne (ne_of_apply_ne K fun h => hl (h ▸ hk)) r t

theorem erase {k : RecordKey} (hk : K k) (t : Table) : t.SameBut K (t.erase k) :=
  fun _ hl => Table.get?_erase_of_ne (ne_of_apply_ne K fun h => hl (h ▸ hk)) t

end Table.SameBut

namespace Table.Kept
variable {t u v : Table}

theorem refl (t : Table) : t.Kept t := fun _ _ h => h

theorem trans (h : t.Kept u) (h' : u.Kept v) : t.Kept v := fun k r hr => h' k r (h k r hr)

theorem put {k : RecordKey} (hnew : t.get? k = none) (r : Record) : t.Kept (t.put k r) := by
  intro l q hq
  rw [Table.get?_put_of_ne _ r t, hq]
  rintro rfl
  rw [hnew] at hq
  cases hq

end Table.Kept

structure KeptByReads {σ : Type} [RecordStore σ] (R : σ → σ → Prop) : Prop where
  refl : ∀ s, R s s
  trans : ∀ s t u, R s t → R t u → R s u
  listIds : ∀ kind query, Throughout R (RecordStore.listIds (σ := σ) kind query)
  get? : ∀ kind id, Throughout R (RecordStore.get? (σ := σ) kind id)

namespace Repository
variable {ε α β : Type}

/-- However the call ends, it has changed records with a key in `K` only. -/
def ChangesOnly (K : RecordKey → Prop) (act : EStateM ε Repository α) : Prop :=
  ∀ repo, Ends act repo (fun _ t => repo.table.SameBut K t.table)
    (fun _ t => repo.table.SameBut K t.table)

theorem keptByReads_sameBut (K : RecordKey → Prop) :
    KeptByReads fun repo t : Repository => repo.table.SameBut K t.table where
  refl repo := .refl K repo.table
  trans _ _ _ := .trans
  listIds _ _ repo := .refl K repo.table
  get? _ _ repo := .refl K repo.table

namespace ChangesOnly
variable {K : RecordKey → Prop} {act : EStateM ε Repository α}

theorem pure (a : α) : ChangesOnly (ε := ε) K (Pure.pure a) :=
  Throughout.pure (keptByReads_sameBut K).refl a

theorem throw (e : ε) : ChangesOnly K (throw e : EStateM ε Repository α) :=
  Throughout.throw (keptByReads_sameBut K).refl e

theorem bind {next : α → EStateM ε Repository β} (h : ChangesOnly K act)
    (hnext : ∀ a, ChangesOnly K (next a)) : ChangesOnly K (act >>= next) :=
  Throughout.bind (keptByReads_sameBut K).trans h hnext

theorem forM {f : α → EStateM ε Repository PUnit} {l : List α} (h : ∀ a ∈ l, ChangesOnly K (f a)) :
    ChangesOnly K (l.forM f) :=
  Throughout.forM (keptByReads_sameBut K).refl (keptByReads_sameBut K).trans h

theorem mapM {f : α → EStateM ε Repository β} {l : List α} (h : ∀ a ∈ l, ChangesOnly K (f a)) :
    ChangesOnly K (l.mapM f) :=
  Throughout.mapM (keptByReads_sameBut K).refl (keptByReads_sameBut K).trans h

end ChangesOnly

variable {K : RecordKey → Prop}

theorem changesOnly_chargeWrite : ChangesOnly K chargeWrite := by
  intro repo
  unfold chargeWrite
  refine Ends.get_bind ?_
  split
  · exact .refl K _
  · exact .refl K _
  · exact Table.SameBut.refl K _

theorem changesOnly_create {r : Record} (hk : ∀ id, K ⟨r.kind, id⟩) : ChangesOnly K (create r) := by
  unfold create
  refine changesOnly_chargeWrite.bind fun _ repo => Ends.get_bind (Ends.set_bind (Ends.pure ?_))
  exact Table.SameBut.put (hk _) _ _

theorem changesOnly_insert {id : String} {r : Record} (hk : K ⟨r.kind, id⟩) :
    ChangesOnly K (insert id r) := by
  unfold insert
  refine changesOnly_chargeWrite.bind fun _ repo => Ends.get_bind ?_
  split
  · exact Table.SameBut.refl _ _
  · exact Table.SameBut.put hk _ _

theorem ends_insert_stored (id : String) (r : Record) (repo : Repository) :
    Ends (insert id r) repo (fun _ t => t.table.get? ⟨r.kind, id⟩ = some (r.withId id))
      (fun _ _ => True) := by
  unfold insert
  refine (Ends.trivial chargeWrite repo).bind fun _ t _ => Ends.get_bind ?_
  split
  · exact trivial
  · exact Table.get?_put_self _ _ _

theorem changesOnly_erase {kind : RecordKind} {id : String} (hk : K ⟨kind, id⟩) :
    ChangesOnly K (erase kind id) := by
  unfold erase
  refine changesOnly_chargeWrite.bind fun _ repo => Ends.get_bind ?_
  split
  · exact Table.SameBut.refl _ _
  · exact Table.SameBut.erase hk _

end Repository

section reads
variable {σ α : Type} [RecordStore σ] [Stored α] {R : σ → σ → Prop}

theorem throughout_decode (h : KeptByReads R) (r : Record) :
    Throughout R (StoreM.decode (α := α) r) := by
  unfold StoreM.decode
  split
  · exact .pure h.refl _
  · exact .throw h.refl _

theorem KeptByReads.fetch (h : KeptByReads R) (id : String) : Throughout R (StoreM.fetch α id) := by
  refine .bind h.trans (h.get? (Stored.kind α) id) fun r => ?_
  cases r with
  | none => exact .throw h.refl _
  | some r => exact throughout_decode h r

end reads

namespace StoreM
open Repository (ChangesOnly keptByReads_sameBut)
variable {α : Type} [Stored α] {K : RecordKey → Prop}

theorem changesOnly_persist {a : α} (hk : ∀ id, K ⟨(Stored.toRecord a).kind, id⟩) :
    ChangesOnly K (persist (σ := Repository) a) :=
  (Repository.changesOnly_create hk).bind fun _ => throughout_decode (keptByReads_sameBut K) _

theorem changesOnly_put {a : α} (hk : K (Stored.toRecord a).key) :
    ChangesOnly K (put (σ := Repository) a) :=
  Repository.changesOnly_insert hk

theorem ends_put_stored (a : α) (repo : Repository) :
    Ends (put a) repo (fun _ t =>
        repo.table.SameBut (fun k => k = (Stored.toRecord a).key) t.table ∧
        t.table.get? (Stored.toRecord a).key = some (Stored.toRecord a)) (fun _ _ => True) := by
  have hstored := Repository.ends_insert_stored (Stored.toRecord a).id (Stored.toRecord a) repo
  rw [Record.withId_id] at hstored
  have hsameBut : ChangesOnly (fun k => k = (Stored.toRecord a).key) (put a) := changesOnly_put rfl
  exact ((hsameBut repo).and hstored).of_ok

theorem changesOnly_erase {id : String} (hk : K ⟨Stored.kind α, id⟩) :
    ChangesOnly K (erase (σ := Repository) α id) :=
  Repository.changesOnly_erase hk

end StoreM

end DriveLog
