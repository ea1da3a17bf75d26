import DriveLog.Proofs.Store.Issue
set_option autoImplicit false

namespace DriveLog

/-- A call on a store, of records as they are or of values that are the records of one kind. `limit` sets
the number of writes that still succeed, or ends the failures. -/
inductive Call : Type 1
  | create (r : Record)
  | insert (id : String) (r : Record)
  | erase (kind : RecordKind) (id : String)
  | get? (kind : RecordKind) (id : String)
  | listIds (kind : RecordKind) (query : List Predicate)
  | persist {α : Type} [Stored α] [Stored.Lawful α] (a : α)
  | put {α : Type} [Stored α] [Stored.Lawful α] (a : α)
  | fetch (α : Type) [Stored α] [Stored.Lawful α] (id : String)
  | remove (α : Type) [Stored α] [Stored.Lawful α] (id : String)
  | limit (writes : Option Nat)

inductive Answer where
  | done
  | id (id : String)
  | record (r : Option Record)
  | ids (ids : List String)
  deriving DecidableEq, Repr

class Limited (σ : Type) where
  limit : (writes : Option Nat) → σ → σ

instance : Limited Repository where
  limit
    | some n => Repository.failWritesAfter n
    | none => Repository.clearFailures

namespace Call
section run
variable {σ : Type} [RecordStore σ] [Limited σ]

def run : Call → StoreM σ Answer
  | create r => return .id (← RecordStore.create r)
  | insert id r => do
    RecordStore.insert id r
    return .done
  | erase kind id => do
    RecordStore.erase kind id
    return .done
  | get? kind id => return .record (← RecordStore.get? kind id)
  | listIds kind query => return .ids (← RecordStore.listIds kind query)
  | persist a => return .record (some (Stored.toRecord (← StoreM.persist a)))
  | put a => do
    StoreM.put a
    return .done
  | fetch α id => return .record (some (Stored.toRecord (← StoreM.fetch α id)))
  | remove α id => do
    StoreM.erase α id
    return .done
  | limit writes => do
    modify (Limited.limit writes)
    return .done

def answer (c : Call) (s : σ) : Except StorageError Answer :=
  match c.run s with
  | .ok a _ => .ok a
  | .error e _ => .error e

def after (c : Call) (s : σ) : σ :=
  match c.run s with
  | .ok _ t => t
  | .error _ t => t

end run

def writes : Call → Bool
  | create _ | insert _ _ | erase _ _ | persist _ | put _ | remove _ _ => true
  | get? _ _ | listIds _ _ | fetch _ _ | limit _ => false

def target? : Call → Option RecordKey
  | insert id r => some ⟨r.kind, id⟩
  | erase kind id => some ⟨kind, id⟩
  | put a => some (Stored.toRecord a).key
  | fetch α id | remove α id => some ⟨Stored.kind α, id⟩
  | create _ | get? _ _ | listIds _ _ | persist _ | limit _ => none

end Call

section run
variable {σ : Type} [RecordStore σ] [Limited σ]

def answers : List Call → σ → List (Except StorageError Answer)
  | [], _ => []
  | c :: rest, s => c.answer s :: answers rest (c.after s)

def served : List Call → σ → σ
  | [], s => s
  | c :: rest, s => served rest (c.after s)

end run

namespace FieldValue
variable {x y : FieldValue}

/-- An integer is compared with a number as the number nearest to it, and a text only with a text. -/
inductive Below : FieldValue → FieldValue → Prop
  | int {m n : Int} (h : m < n) : Below (.int m) (.int n)
  | float {x y : Binary64} (h : x.less y = true) : Below (.float x) (.float y)
  | intFloat {m : Int} {y : Binary64} (h : (Binary64.ofInt m).less y = true) :
      Below (.int m) (.float y)
  | floatInt {x : Binary64} {n : Int} (h : x.less (Binary64.ofInt n) = true) :
      Below (.float x) (.int n)
  | text {s t : String} (h : s < t) : Below (.text s) (.text t)

inductive Same : FieldValue → FieldValue → Prop
  | int (n : Int) : Same (.int n) (.int n)
  | float {x y : Binary64} (h : x.equals y = true) : Same (.float x) (.float y)
  | intFloat {m : Int} {y : Binary64} (h : (Binary64.ofInt m).equals y = true) :
      Same (.int m) (.float y)
  | floatInt {x : Binary64} {n : Int} (h : x.equals (Binary64.ofInt n) = true) :
      Same (.float x) (.int n)
  | text (s : String) : Same (.text s) (.text s)

theorem compare?_eq_lt_iff : x.compare? y = some .lt ↔ x.Below y := by
  constructor
  · intro h
    cases x <;> cases y <;> simp only [compare?, Option.some.injEq, reduceCtorEq] at h
    case int.int => exact .int (Std.compare_eq_lt.mp h)
    case int.float => exact .intFloat (beq_iff_eq.mpr h)
    case float.int => exact .floatInt (beq_iff_eq.mpr h)
    case float.float => exact .float (beq_iff_eq.mpr h)
    case text.text => exact .text (compareOfLessAndEq_eq_lt.mp h)
  · rintro (h | h | h | h | h)
    · exact congrArg some (Std.compare_eq_lt.mpr h)
    · exact beq_iff_eq.mp h
    · exact beq_iff_eq.mp h
    · exact beq_iff_eq.mp h
    · exact congrArg some (compareOfLessAndEq_eq_lt.mpr h)

theorem compare?_eq_eq_iff : x.compare? y = some .eq ↔ x.Same y := by
  constructor
  · intro h
    cases x <;> cases y <;> simp only [compare?, Option.some.injEq, reduceCtorEq] at h
    case int.int => exact Std.LawfulEqOrd.eq_of_compare h ▸ .int _
    case int.float => exact .intFloat (beq_iff_eq.mpr h)
    case float.int => exact .floatInt (beq_iff_eq.mpr h)
    case float.float => exact .float (beq_iff_eq.mpr h)
    case text.text => exact Std.LawfulEqOrd.eq_of_compare h ▸ .text _
  · rintro (_ | h | h | h | _)
    · exact congrArg some Std.ReflOrd.compare_self
    · exact beq_iff_eq.mp h
    · exact beq_iff_eq.mp h
    · exact beq_iff_eq.mp h
    · exact congrArg some Std.ReflOrd.compare_self

theorem compare?_swap (x y : FieldValue) : y.compare? x = (x.compare? y).map Ordering.swap := by
  cases x <;> cases y
  case int.int m n => exact congrArg some Std.OrientedOrd.eq_swap
  case text.text s t => exact congrArg some Std.OrientedOrd.eq_swap
  case int.text | float.text | text.int | text.float => rfl
  all_goals exact Binary64.compare?_swap _ _

theorem compare?_eq_gt_iff : x.compare? y = some .gt ↔ y.Below x := by
  rw [← compare?_eq_lt_iff, compare?_swap x y]
  cases x.compare? y with
  | none => simp
  | some o => cases o <;> simp

end FieldValue

/-- What an operator asks of two values. A difference is one that can be told: values that cannot be
compared are not different. -/
def Operator.Asks : Operator → FieldValue → FieldValue → Prop
  | .eq, x, y => x.Same y
  | .ne, x, y => x.Below y ∨ y.Below x
  | .lt, x, y => x.Below y
  | .le, x, y => x.Below y ∨ x.Same y
  | .gt, x, y => y.Below x
  | .ge, x, y => y.Below x ∨ x.Same y

theorem Operator.holds_iff (op : Operator) (x y : FieldValue) : op.holds x y = true ↔ op.Asks x y := by
  have hlt := FieldValue.compare?_eq_lt_iff (x := x) (y := y)
  have heq := FieldValue.compare?_eq_eq_iff (x := x) (y := y)
  have hgt := FieldValue.compare?_eq_gt_iff (x := x) (y := y)
  rw [holds]
  cases hcompare : x.compare? y with
  | none =>
    simp only [hcompare, reduceCtorEq, false_iff] at hlt heq hgt
    cases op <;> simp [Asks, hlt, heq, hgt]
  | some o =>
    cases o <;> simp only [hcompare, Option.some.injEq, reduceCtorEq, false_iff, true_iff] at hlt heq hgt <;>
      cases op <;> simp [Asks, accepts, hlt, heq, hgt]

def Predicate.Met (p : Predicate) (r : Record) : Prop :=
  ∃ actual, r.field? p.field = some actual ∧ p.op.Asks actual p.value

theorem Predicate.accepts_iff (p : Predicate) (r : Record) : p.accepts r = true ↔ p.Met r := by
  simp only [accepts, Option.any_eq_true, Operator.holds_iff, Met]

namespace Table

/-- The ids of one kind whose records meet every condition, ascending. -/
structure Lists (t : Table) (kind : RecordKind) (query : List Predicate) (ids : List String) : Prop where
  ascending : ids.Pairwise (· < ·)
  mem_iff : ∀ id, id ∈ ids ↔ ∃ r, t.get? ⟨kind, id⟩ = some r ∧ ∀ p ∈ query, p.Met r

theorem lists_ids {t : Table} (h : t.WellFormed) (kind : RecordKind) (query : List Predicate) :
    t.Lists kind query (t.ids kind query) where
  ascending := pairwise_ids h kind query
  mem_iff id := by simp only [mem_ids_iff h, List.all_eq_true, Predicate.accepts_iff]

structure Writes (t : Table) (k : RecordKey) (r : Option Record) (u : Table) : Prop where
  own : u.get? k = r
  others : t.SameBut (fun l => l = k) u

theorem writes_put (t : Table) (k : RecordKey) (r : Record) : t.Writes k (some r) (t.put k r) :=
  ⟨get?_put_self k r t, SameBut.put (K := fun l => l = k) rfl t r⟩

theorem writes_erase (t : Table) (k : RecordKey) : t.Writes k none (t.erase k) :=
  ⟨get?_erase_self t k, SameBut.erase (K := fun l => l = k) rfl t⟩

end Table

namespace Call

/-- What a call that succeeds answers, and the table that it leaves. -/
inductive Done (t : Table) : Call → Answer → Table → Prop
  | create {r : Record} {id : String} {u : Table} (fresh : ∀ kind, t.get? ⟨kind, id⟩ = none)
      (h : t.Writes ⟨r.kind, id⟩ (some (r.withId id)) u) : Done t (.create r) (.id id) u
  | insert {id : String} {r : Record} {u : Table} (stored : t.get? ⟨r.kind, id⟩ ≠ none)
      (h : t.Writes ⟨r.kind, id⟩ (some (r.withId id)) u) : Done t (.insert id r) .done u
  | erase {kind : RecordKind} {id : String} {u : Table} (stored : t.get? ⟨kind, id⟩ ≠ none)
      (h : t.Writes ⟨kind, id⟩ none u) : Done t (.erase kind id) .done u
  | get? (kind : RecordKind) (id : String) : Done t (.get? kind id) (.record (t.get? ⟨kind, id⟩)) t
  | listIds {kind : RecordKind} {query : List Predicate} {ids : List String}
      (h : t.Lists kind query ids) : Done t (.listIds kind query) (.ids ids) t
  | persist {α : Type} [Stored α] [Stored.Lawful α] {a : α} {id : String} {u : Table}
      (fresh : ∀ kind, t.get? ⟨kind, id⟩ = none)
      (h : t.Writes ⟨Stored.kind α, id⟩ (some ((Stored.toRecord a).withId id)) u) :
      Done t (.persist a) (.record (some ((Stored.toRecord a).withId id))) u
  | put {α : Type} [Stored α] [Stored.Lawful α] {a : α} {u : Table}
      (stored : t.get? (Stored.toRecord a).key ≠ none)
      (h : t.Writes (Stored.toRecord a).key (some (Stored.toRecord a)) u) : Done t (.put a) .done u
  | fetch {α : Type} [Stored α] [Stored.Lawful α] {id : String} {r : Record}
      (h : t.get? ⟨Stored.kind α, id⟩ = some r) : Done t (.fetch α id) (.record (some r)) t
  | remove {α : Type} [Stored α] [Stored.Lawful α] {id : String} {u : Table}
      (stored : t.get? ⟨Stored.kind α, id⟩ ≠ none) (h : t.Writes ⟨Stored.kind α, id⟩ none u) :
      Done t (.remove α id) .done u
  | limit (writes : Option Nat) : Done t (.limit writes) .done t

/-- Why a call is refused: no more writes succeed, or there is no record to read or to write over. -/
inductive Refused (repo : Repository) (c : Call) : StorageError → Prop
  | spent (hwrites : c.writes = true) (h : repo.writesLeft = some 0) :
      Refused repo c (.database "injected write failure")
  | missing {k : RecordKey} (htarget : c.target? = some k) (h : repo.table.get? k = none) :
      Refused repo c (.notFound k.kind k.id)

end Call

namespace Repository
variable {repo t : Repository} {α : Type} [Stored α] [Stored.Lawful α]

theorem Ready.of_sameIds {b : Bool} (h : repo.Ready b) (hids : repo.SameIds t)
    (hwf : t.table.WellFormed) (hold : ∀ k, repo.table.get? k = none → t.table.get? k = none) :
    t.Ready false where
  wellFormed := hwf
  injective := by
    rw [hids.idAt, hids.created]
    exact h.injective
  fresh n hn kind := by
    rw [hids.created] at hn
    rw [hids.idAt]
    exact hold _ (h.fresh n hn kind)
  unlimited := by simp

theorem ends_chargeWrite_spent (repo : Repository) :
    Ends chargeWrite repo (fun _ t => repo.SameIds t ∧ t.table = repo.table)
      (fun e t => t = repo ∧ repo.writesLeft = some 0 ∧ e = .database "injected write failure") := by
  unfold chargeWrite
  refine Ends.get_bind ?_
  split
  · exact Ends.pure ⟨.refl repo, rfl⟩
  · rename_i hnone
    exact Ends.throw ⟨rfl, hnone, rfl⟩
  · exact ⟨⟨rfl, rfl⟩, rfl⟩

/-- What `insert` and `erase` have in common: the record is to be there. -/
def overwrite (k : RecordKey) (f : Table → Table) : StoreM Repository Unit := do
  chargeWrite
  let repo ← get
  if (repo.table.get? k).isNone then throw (.notFound k.kind k.id)
  set { repo with table := f repo.table }

def Refuses (repo : Repository) (c : Call) (e : StorageError) (t : Repository) : Prop :=
  t.Ready false ∧ c.Refused repo e ∧ t.table = repo.table

variable {c : Call}

theorem ends_overwrite (h : repo.Ready false) (hwrites : c.writes = true) {k : RecordKey}
    (htarget : c.target? = some k) {f : Table → Table} {r : Option Record}
    (hf : repo.table.Writes k r (f repo.table)) (hwf : (f repo.table).WellFormed) :
    Ends (overwrite k f) repo
      (fun _ t => t.Ready false ∧ repo.table.get? k ≠ none ∧ repo.table.Writes k r t.table)
      (repo.Refuses c) := by
  unfold overwrite
  refine ((ends_chargeWrite_spent repo).mono (fun _ _ ht => ht) ?_).bind fun _ t ht => Ends.get_bind ?_
  · rintro e t ⟨rfl, hspent, rfl⟩
    exact ⟨h, .spent hwrites hspent, rfl⟩
  obtain ⟨hids, htable⟩ := ht
  rw [htable]
  cases hk : repo.table.get? k with
  | none =>
    refine Ends.throw_bind ⟨?_, .missing htarget hk, htable⟩
    exact h.of_sameIds hids (htable ▸ h.wellFormed) fun l hl => htable ▸ hl
  | some q =>
    refine ⟨h.of_sameIds ⟨hids.idAt, hids.created⟩ hwf fun l hl => ?_, by simp, hf⟩
    have hne : l ≠ k := by
      rintro rfl
      rw [hl] at hk
      cases hk
    exact (hf.others l hne).trans hl

theorem ends_insert_call (h : repo.Ready false) (hwrites : c.writes = true) {id : String} {r : Record}
    (htarget : c.target? = some ⟨r.kind, id⟩) :
    Ends (insert id r) repo
      (fun _ t => t.Ready false ∧ repo.table.get? ⟨r.kind, id⟩ ≠ none ∧
        repo.table.Writes ⟨r.kind, id⟩ (some (r.withId id)) t.table)
      (repo.Refuses c) :=
  ends_overwrite h hwrites htarget (Table.writes_put _ _ _) (h.wellFormed.put (by simp))

theorem ends_erase_call (h : repo.Ready false) (hwrites : c.writes = true) {kind : RecordKind}
    {id : String} (htarget : c.target? = some ⟨kind, id⟩) :
    Ends (erase kind id) repo
      (fun _ t => t.Ready false ∧ repo.table.get? ⟨kind, id⟩ ≠ none ∧
        repo.table.Writes ⟨kind, id⟩ none t.table)
      (repo.Refuses c) :=
  ends_overwrite h hwrites htarget (Table.writes_erase _ _) (h.wellFormed.erase _)

theorem ends_create_call (h : repo.Ready false) (hwrites : c.writes = true) (r : Record) :
    Ends (create r) repo
      (fun id t => t.Ready false ∧ (∀ kind, repo.table.get? ⟨kind, id⟩ = none) ∧
        repo.table.Writes ⟨r.kind, id⟩ (some (r.withId id)) t.table)
      (repo.Refuses c) := by
  have hspent : Ends (create r) repo (fun _ _ => True)
      (fun e _ => repo.writesLeft = some 0 ∧ e = .database "injected write failure") := by
    unfold create
    refine ((ends_chargeWrite_spent repo).mono (fun _ _ ht => ht) fun _ _ he => he.2).bind fun _ t _ => ?_
    exact Ends.get_bind (Ends.set_bind (Ends.pure True.intro))
  refine ((ends_create h r).and hspent).mono (fun id t ht => ?_) fun e t he => ?_
  · obtain ⟨⟨hready, htable, hfresh⟩, -⟩ := ht
    exact ⟨hready, hfresh, htable ▸ Table.writes_put _ _ _⟩
  · obtain ⟨⟨hready, htable, -, -⟩, hzero, rfl⟩ := he
    exact ⟨hready, .spent hwrites hzero, htable⟩

theorem ends_persist_call (h : repo.Ready false) (a : α) :
    Ends (StoreM.persist a) repo
      (fun a' t => t.Ready false ∧ ∃ id, Stored.toRecord a' = (Stored.toRecord a).withId id ∧
        (∀ kind, repo.table.get? ⟨kind, id⟩ = none) ∧
        repo.table.Writes ⟨Stored.kind α, id⟩ (some ((Stored.toRecord a).withId id)) t.table)
      (repo.Refuses (.persist a)) := by
  unfold StoreM.persist
  refine (ends_create_call h rfl (Stored.toRecord a)).bind fun id t ht => ?_
  obtain ⟨hready, hfresh, hwritten⟩ := ht
  obtain ⟨a', ha'⟩ := Stored.exists_withId a id
  rw [Stored.kind_toRecord] at hwritten
  rw [ha', StoreM.decode_toRecord]
  exact Ends.pure ⟨hready, id, ha'.symm, hfresh, hwritten⟩

theorem ends_fetch_call (h : repo.Ready false) (id : String) :
    Ends (StoreM.fetch α id) repo
      (fun a t => t = repo ∧ repo.table.get? ⟨Stored.kind α, id⟩ = some (Stored.toRecord a))
      (repo.Refuses (.fetch α id)) := by
  have hget : (RecordStore.get? (Stored.kind α) id : StoreM Repository (Option Record)) repo =
      .ok (repo.table.get? ⟨Stored.kind α, id⟩) repo := rfl
  unfold StoreM.fetch Ends
  rw [bind_of_eq_ok hget]
  cases hk : repo.table.get? ⟨Stored.kind α, id⟩ with
  | none => exact ⟨h, .missing rfl hk, rfl⟩
  | some r =>
    have hkey := h.wellFormed.key_of_get? hk
    obtain ⟨a, rfl⟩ := Stored.Lawful.kind_eq_iff.mp (congrArg RecordKey.kind hkey)
    simp only [StoreM.decode_toRecord]
    exact ⟨rfl, rfl⟩

theorem Ready.limit (h : repo.Ready false) (writes : Option Nat) :
    Ready false (Limited.limit writes repo) := by
  cases writes <;> exact ⟨h.wellFormed, h.injective, h.fresh, by simp⟩

theorem table_limit (writes : Option Nat) (repo : Repository) :
    (Limited.limit writes repo).table = repo.table := by
  cases writes <;> rfl

theorem ends_run (h : repo.Ready false) (c : Call) :
    Ends c.run repo (fun a t => t.Ready false ∧ c.Done repo.table a t.table) (repo.Refuses c) := by
  cases c with
  | create r =>
    refine (ends_create_call h rfl r).bind fun id t ht => Ends.pure ?_
    exact ⟨ht.1, .create ht.2.1 ht.2.2⟩
  | insert id r =>
    refine (ends_insert_call h rfl rfl).bind fun _ t ht => Ends.pure ?_
    exact ⟨ht.1, .insert ht.2.1 ht.2.2⟩
  | erase kind id =>
    refine (ends_erase_call h rfl rfl).bind fun _ t ht => Ends.pure ?_
    exact ⟨ht.1, .erase ht.2.1 ht.2.2⟩
  | get? kind id => exact ⟨h, .get? kind id⟩
  | listIds kind query => exact ⟨h, .listIds (Table.lists_ids h.wellFormed kind query)⟩
  | persist a =>
    refine (ends_persist_call h a).bind fun a' t ht => Ends.pure ?_
    obtain ⟨hready, id, heq, hfresh, hwritten⟩ := ht
    rw [heq]
    exact ⟨hready, .persist hfresh hwritten⟩
  | put a =>
    refine (ends_insert_call h rfl rfl).bind fun _ t ht => Ends.pure ?_
    obtain ⟨hready, hstored, hwritten⟩ := ht
    rw [Record.withId_id] at hwritten
    exact ⟨hready, .put hstored hwritten⟩
  | fetch α id =>
    refine (ends_fetch_call h id).bind fun a t ht => Ends.pure ?_
    obtain ⟨rfl, hfound⟩ := ht
    exact ⟨h, .fetch hfound⟩
  | remove α id =>
    refine (ends_erase_call h rfl rfl).bind fun _ t ht => Ends.pure ?_
    exact ⟨ht.1, .remove ht.2.1 ht.2.2⟩
  | limit writes =>
    refine ⟨h.limit writes, ?_⟩
    rw [table_limit]
    exact .limit writes

theorem Ready.after (h : repo.Ready false) (c : Call) : Ready false (c.after repo) := by
  have hrun := ends_run h c
  unfold Call.after
  cases hc : c.run repo with
  | ok a t => exact (hrun.of_eq_ok hc).1
  | error e t => exact (hrun.of_eq_error hc).1

theorem Ready.served (h : repo.Ready false) (calls : List Call) : Ready false (served calls repo) := by
  induction calls generalizing repo with
  | nil => exact h
  | cons c rest ih => exact ih (h.after c)

/-- Every record has the kind and the id that it is stored under, so that none is found to be of another
kind. A call that succeeds does what it is for, and one that fails has a reason and changes no table. Ids
can always be listed. -/
structure Consistent (repo : Repository) : Prop where
  keyed : ∀ k r, repo.table.get? k = some r → r.kind = k.kind ∧ r.id = k.id
  matched : ∀ (c : Call) (expected actual : RecordKind) (t : Repository),
    c.run repo ≠ .error (.kindMismatch expected actual) t
  done : ∀ (c : Call) (a : Answer) (t : Repository), c.run repo = .ok a t → c.Done repo.table a t.table
  refused : ∀ (c : Call) (e : StorageError) (t : Repository), c.run repo = .error e t →
    c.Refused repo e ∧ t.table = repo.table
  listed : ∀ (kind : RecordKind) (query : List Predicate),
    ∃ ids, RecordStore.listIds kind query repo = .ok ids repo ∧ repo.table.Lists kind query ids

theorem Ready.consistent (h : repo.Ready false) : repo.Consistent where
  keyed k r hr := by
    have hkey := h.wellFormed.key_of_get? hr
    exact ⟨congrArg RecordKey.kind hkey, congrArg RecordKey.id hkey⟩
  matched c expected actual t herror := by
    cases ((ends_run h c).of_eq_error herror).2.1
  done c a t hok := ((ends_run h c).of_eq_ok hok).2
  refused c e t herror := ((ends_run h c).of_eq_error herror).2
  listed kind query := ⟨_, rfl, Table.lists_ids h.wellFormed kind query⟩

end Repository
end DriveLog
