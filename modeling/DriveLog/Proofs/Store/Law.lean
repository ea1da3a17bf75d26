import DriveLog.Proofs.Outcome
import DriveLog.Proofs.Store.Table
import DriveLog.Store.Interrupted
/-!
Stores that work on one table. Each call reads or changes the table as its name says, or it is
refused by a failure that was laid down beforehand, and then the table stays.
-/
set_option autoImplicit false

namespace DriveLog

class Stored.Lawful (α : Type) [Stored α] : Prop where
  ofRecord?_eq_some_iff : ∀ {r : Record} {a : α}, Stored.ofRecord? r = some a ↔ r = Stored.toRecord a
  kind_eq_iff : ∀ {r : Record}, r.kind = Stored.kind α ↔ ∃ a : α, r = Stored.toRecord a

instance : Stored.Lawful User where
  ofRecord?_eq_some_iff {r a} := by cases r <;> simp [Stored.ofRecord?, Stored.toRecord]
  kind_eq_iff {r} := by cases r <;> simp [Stored.kind, Stored.toRecord, Record.kind]

instance : Stored.Lawful Trip where
  ofRecord?_eq_some_iff {r a} := by cases r <;> simp [Stored.ofRecord?, Stored.toRecord]
  kind_eq_iff {r} := by cases r <;> simp [Stored.kind, Stored.toRecord, Record.kind]

instance : Stored.Lawful Event where
  ofRecord?_eq_some_iff {r a} := by cases r <;> simp [Stored.ofRecord?, Stored.toRecord]
  kind_eq_iff {r} := by cases r <;> simp [Stored.kind, Stored.toRecord, Record.kind]

instance : Stored.Lawful DrivingCondition where
  ofRecord?_eq_some_iff {r a} := by cases r <;> simp [Stored.ofRecord?, Stored.toRecord]
  kind_eq_iff {r} := by cases r <;> simp [Stored.kind, Stored.toRecord, Record.kind]

instance : Stored.Lawful RawVideo where
  ofRecord?_eq_some_iff {r a} := by cases r <;> simp [Stored.ofRecord?, Stored.toRecord]
  kind_eq_iff {r} := by cases r <;> simp [Stored.kind, Stored.toRecord, Record.kind]

instance : Stored.Lawful RawMotion where
  ofRecord?_eq_some_iff {r a} := by cases r <;> simp [Stored.ofRecord?, Stored.toRecord]
  kind_eq_iff {r} := by cases r <;> simp [Stored.kind, Stored.toRecord, Record.kind]

instance : Stored.Lawful RawLocation where
  ofRecord?_eq_some_iff {r a} := by cases r <;> simp [Stored.ofRecord?, Stored.toRecord]
  kind_eq_iff {r} := by cases r <;> simp [Stored.kind, Stored.toRecord, Record.kind]

theorem Stored.kind_toRecord {α : Type} [Stored α] [Stored.Lawful α] (a : α) :
    (Stored.toRecord a).kind = Stored.kind α :=
  Stored.Lawful.kind_eq_iff.mpr ⟨a, rfl⟩

theorem Stored.ofRecord_toRecord {α : Type} [Stored α] [Stored.Lawful α] (a : α) :
    Stored.ofRecord (Stored.toRecord a) = .ok a := by
  simp [Stored.ofRecord, Stored.Lawful.ofRecord?_eq_some_iff.mpr rfl]

theorem Stored.exists_withId {α : Type} [Stored α] [Stored.Lawful α] (a : α) (id : String) :
    ∃ a' : α, (Stored.toRecord a).withId id = Stored.toRecord a' :=
  Stored.Lawful.kind_eq_iff.mp (by rw [Record.kind_withId, Stored.kind_toRecord])

theorem StoreM.decode_toRecord {σ α : Type} [Stored α] [Stored.Lawful α] (a : α) :
    (StoreM.decode (Stored.toRecord a) : StoreM σ α) = pure a := by
  rw [StoreM.decode, Stored.ofRecord_toRecord]

def StorageError.IsInjected (e : StorageError) : Prop :=
  e = .database "injected read failure" ∨ e = .database "injected write failure"

/-- A call on a store is refused: nothing has changed, and it does not happen to a store without
failures. -/
def Refused {σ : Type} (table : σ → Table) (Ready : Bool → σ → Prop) (steady : Bool) (s : σ)
    (e : StorageError) (t : σ) : Prop :=
  Ready steady t ∧ table t = table s ∧ e.IsInjected ∧ steady = false

/-- A store that is ready is in order and gives new ids to new records; if it is steady, no failure
is laid down for it. -/
class LawfulStore (σ : Type) [RecordStore σ] where
  table : σ → Table
  Ready : (steady : Bool) → σ → Prop
  wellFormed : ∀ {b : Bool} {s : σ}, Ready b s → (table s).WellFormed
  ends_listIds : ∀ {b : Bool} {s : σ}, Ready b s → ∀ kind query,
    Ends (RecordStore.listIds kind query) s
      (fun ids t => Ready b t ∧ table t = table s ∧ ids = (table s).ids kind query)
      (Refused table Ready b s)
  ends_get? : ∀ {b : Bool} {s : σ}, Ready b s → ∀ kind id,
    Ends (RecordStore.get? kind id) s
      (fun r t => Ready b t ∧ table t = table s ∧ r = (table s).get? ⟨kind, id⟩)
      (Refused table Ready b s)
  ends_create : ∀ {b : Bool} {s : σ}, Ready b s → ∀ r,
    Ends (RecordStore.create r) s
      (fun id t => Ready b t ∧ table t = (table s).put ⟨r.kind, id⟩ (r.withId id) ∧
        ∀ kind, (table s).get? ⟨kind, id⟩ = none)
      (Refused table Ready b s)
  ends_insert : ∀ {b : Bool} {s : σ}, Ready b s → ∀ {id r},
    (table s).get? ⟨r.kind, id⟩ ≠ none → Ends (RecordStore.insert id r) s
      (fun _ t => Ready b t ∧ table t = (table s).put ⟨r.kind, id⟩ (r.withId id))
      (Refused table Ready b s)
  ends_erase : ∀ {b : Bool} {s : σ}, Ready b s → ∀ {kind id},
    (table s).get? ⟨kind, id⟩ ≠ none → Ends (RecordStore.erase kind id) s
      (fun _ t => Ready b t ∧ table t = (table s).erase ⟨kind, id⟩)
      (Refused table Ready b s)

namespace Repository

/-- The ids to come are all different and not in use. -/
structure Ready (steady : Bool) (repo : Repository) : Prop where
  wellFormed : repo.table.WellFormed
  injective : ∀ m n, repo.created ≤ m → repo.created ≤ n → repo.idAt m = repo.idAt n → m = n
  fresh : ∀ n, repo.created ≤ n → ∀ kind, repo.table.get? ⟨kind, repo.idAt n⟩ = none
  unlimited : steady = true → repo.writesLeft = none

variable {b : Bool} {repo : Repository}

theorem ends_chargeWrite (h : repo.Ready b) :
    Ends chargeWrite repo
      (fun _ t => t.Ready b ∧ t.table = repo.table ∧ t.idAt = repo.idAt ∧ t.created = repo.created)
      (Refused Repository.table Ready b repo) := by
  unfold chargeWrite
  refine Ends.get_bind ?_
  cases hw : repo.writesLeft with
  | none => exact Ends.pure ⟨h, rfl, rfl, rfl⟩
  | some n =>
    have hb : b = false := by
      cases b with
      | false => rfl
      | true => simp [h.unlimited rfl] at hw
    subst hb
    cases n with
    | zero => exact Ends.throw ⟨h, rfl, .inr rfl, rfl⟩
    | succ n =>
      exact ⟨⟨h.wellFormed, h.injective, h.fresh, by simp⟩, rfl, rfl, rfl⟩

theorem ends_create (h : repo.Ready b) (r : Record) :
    Ends (create r) repo
      (fun id t => t.Ready b ∧ t.table = repo.table.put ⟨r.kind, id⟩ (r.withId id) ∧
        ∀ kind, repo.table.get? ⟨kind, id⟩ = none)
      (Refused Repository.table Ready b repo) := by
  unfold create
  refine (ends_chargeWrite h).bind fun _ t ht => ?_
  obtain ⟨hready, htable, hids, hcreated⟩ := ht
  refine Ends.get_bind ?_
  have hfresh := h.fresh repo.created (Nat.le_refl _)
  refine ⟨⟨?_, ?_, ?_, hready.unlimited⟩, ?_, ?_⟩
  · exact hready.wellFormed.put (by simp)
  · intro m n hm hn
    exact hready.injective m n (by simp at hm; omega) (by simp at hn; omega)
  · intro n hn kind
    simp only [hids, hcreated] at hn ⊢
    rw [htable, Table.get?_put, h.fresh n (by omega)]
    refine if_neg fun hk => ?_
    have hid := h.injective _ n (Nat.le_refl _) (by omega) (congrArg RecordKey.id hk)
    omega
  · simp [htable, hids, hcreated]
  · intro kind
    simpa [hids, hcreated] using hfresh kind

theorem Ready.withTable {u : Table} (h : repo.Ready b) (hu : u.WellFormed)
    (hold : ∀ k, repo.table.get? k = none → u.get? k = none) :
    Ready b { repo with table := u } :=
  ⟨hu, h.injective, fun n hn kind => hold _ (h.fresh n hn kind), h.unlimited⟩

theorem ends_insert (h : repo.Ready b) {id : String} {r : Record}
    (hold : repo.table.get? ⟨r.kind, id⟩ ≠ none) :
    Ends (insert id r) repo
      (fun _ t => t.Ready b ∧ t.table = repo.table.put ⟨r.kind, id⟩ (r.withId id))
      (Refused Repository.table Ready b repo) := by
  unfold insert
  refine (ends_chargeWrite h).bind fun _ t ht => ?_
  obtain ⟨hready, htable, -, -⟩ := ht
  refine Ends.get_bind ?_
  have hsome : (t.table.get? ⟨r.kind, id⟩).isNone = false := by
    rw [htable]
    exact Option.isNone_eq_false_iff.mpr (Option.isSome_iff_ne_none.mpr hold)
  simp only [hsome, Bool.false_eq_true, if_false]
  refine ⟨hready.withTable (hready.wellFormed.put (by simp)) fun k hk => ?_, by rw [htable]⟩
  rw [Table.get?_put, hk]
  refine if_neg fun hk' => hold ?_
  rw [hk', ← htable, hk]

theorem ends_erase (h : repo.Ready b) {kind : RecordKind} {id : String}
    (hold : repo.table.get? ⟨kind, id⟩ ≠ none) :
    Ends (erase kind id) repo
      (fun _ t => t.Ready b ∧ t.table = repo.table.erase ⟨kind, id⟩)
      (Refused Repository.table Ready b repo) := by
  unfold erase
  refine (ends_chargeWrite h).bind fun _ t ht => ?_
  obtain ⟨hready, htable, -, -⟩ := ht
  refine Ends.get_bind ?_
  have hsome : (t.table.get? ⟨kind, id⟩).isNone = false := by
    rw [htable]
    exact Option.isNone_eq_false_iff.mpr (Option.isSome_iff_ne_none.mpr hold)
  simp only [hsome, Bool.false_eq_true, if_false]
  refine ⟨hready.withTable (hready.wellFormed.erase _) fun k hk => ?_, by rw [htable]⟩
  rw [Table.get?_erase, hk]
  simp

instance : LawfulStore Repository where
  table := Repository.table
  Ready := Ready
  wellFormed h := h.wellFormed
  ends_listIds h _ _ := ⟨h, rfl, rfl⟩
  ends_get? h _ _ := ⟨h, rfl, rfl⟩
  ends_create := ends_create
  ends_insert := ends_insert
  ends_erase := ends_erase

theorem ready_empty {idAt : Nat → String} (h : Function.Injective idAt) :
    Ready true (empty idAt) :=
  ⟨Table.wellFormed_nil, fun _ _ _ _ hid => h hid, fun _ _ _ => rfl, fun _ => rfl⟩

def planted : List Record → Repository → Repository
  | [], repo => repo
  | r :: rest, repo =>
    match create r repo with
    | .ok _ t => planted rest t
    | .error _ t => planted rest t

theorem ready_planted (h : repo.Ready b) (records : List Record) : Ready b (planted records repo) := by
  induction records generalizing repo with
  | nil => exact h
  | cons r rest ih =>
    have hcreate := ends_create h r
    unfold planted
    cases hr : create r repo with
    | ok id t => exact ih (hcreate.of_eq_ok hr).1
    | error e t => exact ih (hcreate.of_eq_error hr).1

def unaryId (n : Nat) : String := String.ofList (List.replicate n 'i')

theorem unaryId_injective : Function.Injective unaryId := by
  intro m n h
  have hlist := String.ofList_injective h
  simpa using congrArg List.length hlist

end Repository

namespace Interrupted

/-- Reads may be cut off, but show what is stored. -/
structure Ready (steady : Bool) (s : Interrupted) : Prop where
  repository : s.repository.Ready steady
  unlimited : steady = true → s.readsLeft = none
  sighted : s.blindLists = 0
  uncovered : s.overlays = []

def table (s : Interrupted) : Table := s.repository.table

variable {b : Bool} {s : Interrupted}

theorem Ready.withRepository (h : s.Ready b) {repo : Repository} (hrepo : repo.Ready b) :
    Ready b { s with repository := repo } := ⟨hrepo, h.unlimited, h.sighted, h.uncovered⟩

theorem ends_chargeRead (h : s.Ready b) :
    Ends chargeRead s (fun _ t => t.Ready b ∧ t.repository = s.repository)
      (Refused table Ready b s) := by
  unfold chargeRead
  refine Ends.get_bind ?_
  cases hr : s.readsLeft with
  | none => exact Ends.pure ⟨h, rfl⟩
  | some n =>
    have hb : b = false := by
      cases b with
      | false => rfl
      | true => simp [h.unlimited rfl] at hr
    subst hb
    cases n with
    | zero => exact Ends.throw ⟨h, rfl, .inl rfl, rfl⟩
    | succ n => exact ⟨⟨h.repository, by simp, h.sighted, h.uncovered⟩, rfl⟩

theorem ends_onRepository {α : Type} (h : s.Ready b) (Q : α → Table → Prop)
    {act : StoreM Repository α}
    (hact : Ends act s.repository (fun a repo => repo.Ready b ∧ Q a repo.table)
      (Refused Repository.table Repository.Ready b s.repository)) :
    Ends (onRepository act) s (fun a t => t.Ready b ∧ Q a t.table) (Refused table Ready b s) := by
  refine hact.focus ?_ ?_
  · exact fun a repo ha => ⟨h.withRepository ha.1, ha.2⟩
  · exact fun e repo he => ⟨h.withRepository he.1, he.2⟩

theorem ends_listIds (h : s.Ready b) (kind : RecordKind) (query : List Predicate) :
    Ends (listIds kind query) s
      (fun ids t => t.Ready b ∧ t.table = s.table ∧ ids = s.table.ids kind query)
      (Refused table Ready b s) := by
  unfold listIds
  refine (ends_chargeRead h).bind fun _ t ht => ?_
  obtain ⟨hready, hrepo⟩ := ht
  refine Ends.get_bind ?_
  have htable : t.table = s.table := congrArg Repository.table hrepo
  simp only [hready.sighted]
  rw [← htable]
  refine (ends_onRepository hready (fun ids u => u = t.table ∧ ids = t.table.ids kind query)
    (LawfulStore.ends_listIds hready.repository kind query)).mono (fun _ _ ha => ha) fun e u he => ?_
  exact ⟨he.1, he.2.1.trans htable, he.2.2⟩

theorem ends_get? (h : s.Ready b) (kind : RecordKind) (id : String) :
    Ends (get? kind id) s
      (fun r t => t.Ready b ∧ t.table = s.table ∧ r = s.table.get? ⟨kind, id⟩)
      (Refused table Ready b s) := by
  unfold get?
  refine (ends_chargeRead h).bind fun _ t ht => ?_
  obtain ⟨hready, hrepo⟩ := ht
  refine Ends.get_bind ?_
  have htable : t.table = s.table := congrArg Repository.table hrepo
  simp only [hready.uncovered, List.find?_nil]
  rw [← htable]
  refine (ends_onRepository hready (fun r u => u = t.table ∧ r = t.table.get? ⟨kind, id⟩)
    (LawfulStore.ends_get? hready.repository kind id)).mono (fun _ _ ha => ha) fun e u he => ?_
  exact ⟨he.1, he.2.1.trans htable, he.2.2⟩

instance : LawfulStore Interrupted where
  table := table
  Ready := Ready
  wellFormed h := h.repository.wellFormed
  ends_listIds := ends_listIds
  ends_get? := ends_get?
  ends_create {_ s} h r :=
    ends_onRepository h
      (fun id u => u = s.table.put ⟨r.kind, id⟩ (r.withId id) ∧ ∀ kind, s.table.get? ⟨kind, id⟩ = none)
      (Repository.ends_create h.repository r)
  ends_insert {_ s} h id r hold :=
    ends_onRepository h (fun _ u => u = s.table.put ⟨r.kind, id⟩ (r.withId id))
      (Repository.ends_insert h.repository hold)
  ends_erase {_ s} h kind id hold :=
    ends_onRepository h (fun _ u => u = s.table.erase ⟨kind, id⟩)
      (Repository.ends_erase h.repository hold)

theorem ready_ofRepository {repo : Repository} (h : repo.Ready b) : Ready b (ofRepository repo) :=
  ⟨h, fun _ => rfl, rfl, rfl⟩

end Interrupted

namespace StoreM
variable {σ : Type} [RecordStore σ] [LawfulStore σ] {α : Type} [Stored α] {b : Bool} {s : σ}
open LawfulStore (table Ready)

theorem ends_listIds (h : Ready b s) (query : List Predicate) :
    Ends (listIds α query) s
      (fun ids t => Ready b t ∧ table t = table s ∧ ids = (table s).ids (Stored.kind α) query)
      (Refused table Ready b s) :=
  LawfulStore.ends_listIds h _ _

theorem ends_fetch [Stored.Lawful α] (h : Ready b s) {id : String} {a : α}
    (ha : (table s).get? ⟨Stored.kind α, id⟩ = some (Stored.toRecord a)) :
    Ends (fetch α id) s (fun a' t => Ready b t ∧ table t = table s ∧ a' = a)
      (Refused table Ready b s) := by
  unfold fetch
  refine (LawfulStore.ends_get? h (Stored.kind α) id).bind fun r t ht => ?_
  obtain ⟨hready, htable, rfl⟩ := ht
  simp only [ha, decode_toRecord]
  exact Ends.pure ⟨hready, htable, rfl⟩

theorem ends_fetch_any [Stored.Lawful α] (h : Ready b s) (id : String) :
    Ends (fetch α id) s
      (fun a t => Ready b t ∧ table t = table s ∧
        (table s).get? ⟨Stored.kind α, id⟩ = some (Stored.toRecord a))
      (fun _ t => Ready b t ∧ table t = table s) := by
  unfold fetch
  refine ((LawfulStore.ends_get? h (Stored.kind α) id).mono (fun _ _ hr => hr)
    fun _ _ he => ⟨he.1, he.2.1⟩).bind fun r t ht => ?_
  obtain ⟨hready, htable, hr⟩ := ht
  cases r with
  | none => exact Ends.throw ⟨hready, htable⟩
  | some r =>
    simp only [decode, Stored.ofRecord]
    cases ha : (Stored.ofRecord? r : Option α) with
    | none => exact Ends.throw ⟨hready, htable⟩
    | some a =>
      have hra : r = Stored.toRecord a := Stored.Lawful.ofRecord?_eq_some_iff.mp ha
      exact Ends.pure ⟨hready, htable, by rw [← hr, hra]⟩

theorem ends_persist [Stored.Lawful α] (h : Ready b s) (a : α) :
    Ends (persist a) s
      (fun a' t => Ready b t ∧ ∃ id, Stored.toRecord a' = (Stored.toRecord a).withId id ∧
        table t = (table s).put (Stored.toRecord a').key (Stored.toRecord a') ∧
        ∀ kind, (table s).get? ⟨kind, id⟩ = none)
      (Refused table Ready b s) := by
  unfold persist
  refine (LawfulStore.ends_create h (Stored.toRecord a)).bind fun id t ht => ?_
  obtain ⟨hready, htable, hfresh⟩ := ht
  obtain ⟨a', ha'⟩ := Stored.exists_withId a id
  rw [ha', decode_toRecord]
  refine Ends.pure ⟨hready, id, ha'.symm, ?_, hfresh⟩
  rw [htable, ← ha', Record.key_withId]

theorem ends_put (h : Ready b s) {a : α} (hold : (table s).get? (Stored.toRecord a).key ≠ none) :
    Ends (put a) s
      (fun _ t => Ready b t ∧
        table t = (table s).put (Stored.toRecord a).key (Stored.toRecord a))
      (Refused table Ready b s) := by
  refine (LawfulStore.ends_insert h hold).imp fun _ t ht => ⟨ht.1, ht.2.trans ?_⟩
  rw [Record.withId_id]
  rfl

theorem ends_erase (h : Ready b s) {id : String}
    (hold : (table s).get? ⟨Stored.kind α, id⟩ ≠ none) :
    Ends (erase α id) s
      (fun _ t => Ready b t ∧ table t = (table s).erase ⟨Stored.kind α, id⟩)
      (Refused table Ready b s) :=
  LawfulStore.ends_erase h hold

end StoreM

end DriveLog
