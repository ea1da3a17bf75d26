import DriveLog.Proofs.Agreement
import DriveLog.Proofs.Store.Call
import DriveLog.Proofs.Store.Wire
import Mathlib.Data.List.Sort
set_option autoImplicit false

namespace DriveLog

structure Codec where
  encode : Record → Except StorageError Bytes
  decode : Bytes → Except StorageError Record

def Codec.RoundTrips (codec : Codec) : Prop :=
  ∀ r, ∃ bytes, codec.encode r = .ok bytes ∧ codec.decode bytes = .ok r

/-- The ids of the records that meet every condition; the first record that cannot be read ends it. -/
def Codec.matching (codec : Codec) (query : List Predicate) :
    List (String × Bytes) → Except StorageError (List String)
  | [] => .ok []
  | (id, bytes) :: rest => do
    let r ← codec.decode bytes
    let ids ← codec.matching query rest
    return if query.all (·.accepts r) then id :: ids else ids

namespace Codec
variable {codec : Codec}

theorem exists_matching (query : List Predicate) {l : List (String × Bytes)}
    (h : ∀ e ∈ l, ∃ r, codec.decode e.2 = .ok r) :
    ∃ ids, codec.matching query l = .ok ids ∧ ids.Sublist (l.map Prod.fst) ∧ ∀ id, id ∈ ids ↔
      ∃ bytes r, (id, bytes) ∈ l ∧ codec.decode bytes = .ok r ∧ query.all (·.accepts r) = true := by
  induction l with
  | nil => exact ⟨[], rfl, .slnil, by simp⟩
  | cons e l ih =>
    obtain ⟨id, bytes⟩ := e
    obtain ⟨⟨r, hr⟩, hl⟩ := List.forall_mem_cons.mp h
    obtain ⟨ids, hids, hsub, hmem⟩ := ih hl
    have hmatching : codec.matching query ((id, bytes) :: l) =
        .ok (if query.all (·.accepts r) then id :: ids else ids) := by
      rw [matching, hr, hids]
      rfl
    refine ⟨_, hmatching, ?_, fun id' => ?_⟩
    · split
      · exact hsub.cons_cons id
      · exact hsub.cons id
    · grind

def wire : Codec where
  encode r := .ok (Wire.record.write r)
  decode bytes :=
    match Wire.record.read bytes with
    | some (r, _) => .ok r
    | none => .error (.database "no record")

theorem roundTrips_wire : wire.RoundTrips := by
  intro r
  have hread := Wire.record.read_write r []
  rw [List.append_nil] at hread
  exact ⟨_, rfl, by simp only [wire, hread]⟩

end Codec

abbrev Shelf := Std.TreeMap String Bytes

abbrev Shelves := Std.TreeMap RecordKind Shelf (compareOn RecordKind.rank)

namespace Shelves

def find? (shelves : Shelves) (k : RecordKey) : Option Bytes :=
  shelves[k.kind]?.bind fun shelf => shelf[k.id]?

def shelf (shelves : Shelves) (kind : RecordKind) : Shelf := shelves.getD kind ∅

def put (shelves : Shelves) (k : RecordKey) (bytes : Bytes) : Shelves :=
  shelves.insert k.kind ((shelves.shelf k.kind).insert k.id bytes)

def remove (shelves : Shelves) (k : RecordKey) : Shelves :=
  shelves.insert k.kind ((shelves.shelf k.kind).erase k.id)

theorem getElem?_shelf (shelves : Shelves) (kind : RecordKind) (id : String) :
    (shelves.shelf kind)[id]? = shelves.find? ⟨kind, id⟩ := by
  rw [shelf, find?, Std.TreeMap.getD_eq_getD_getElem?]
  cases shelves[kind]? with
  | none => exact Std.TreeMap.getElem?_emptyc
  | some _ => rfl

theorem find?_insert (shelves : Shelves) (kind : RecordKind) (shelf : Shelf) (k : RecordKey) :
    Shelves.find? (shelves.insert kind shelf) k =
      if kind = k.kind then shelf[k.id]? else shelves.find? k := by
  have hkind : compareOn RecordKind.rank kind k.kind = .eq ↔ kind = k.kind :=
    Nat.compare_eq_eq.trans ⟨RecordKind.rank_injective, congrArg _⟩
  rw [find?, find?, Std.TreeMap.getElem?_insert]
  split
  · rename_i h
    rw [if_pos (hkind.mp h)]
    rfl
  · rename_i h
    rw [if_neg fun heq => h (hkind.mpr heq)]

theorem find?_put (shelves : Shelves) (k l : RecordKey) (bytes : Bytes) :
    (shelves.put k bytes).find? l = if k = l then some bytes else shelves.find? l := by
  obtain ⟨kind, id⟩ := k
  obtain ⟨kind', id'⟩ := l
  rw [put, find?_insert, Std.TreeMap.getElem?_insert, getElem?_shelf]
  simp only [RecordKey.mk.injEq, Std.LawfulEqCmp.compare_eq_iff_eq]
  grind

theorem find?_remove (shelves : Shelves) (k l : RecordKey) :
    (shelves.remove k).find? l = if k = l then none else shelves.find? l := by
  obtain ⟨kind, id⟩ := k
  obtain ⟨kind', id'⟩ := l
  rw [remove, find?_insert, Std.TreeMap.getElem?_erase, getElem?_shelf]
  simp only [RecordKey.mk.injEq, Std.LawfulEqCmp.compare_eq_iff_eq]
  grind

end Shelves

structure Archive (codec : Codec) where
  shelves : Shelves
  /-- Writes that still succeed; all do if there is no number. -/
  writesLeft : Option Nat
  /-- The id of each created record, by the number of records created before it. -/
  idAt : Nat → String
  created : Nat

namespace Archive
variable {codec : Codec}

def empty (codec : Codec) (idAt : Nat → String) : Archive codec :=
  { shelves := ∅, writesLeft := none, idAt, created := 0 }

def limit (writesLeft : Option Nat) (archive : Archive codec) : Archive codec :=
  { archive with writesLeft }

def chargeWrite : StoreM (Archive codec) Unit := do
  match (← get).writesLeft with
  | none => pure ()
  | some 0 => throw (.database "injected write failure")
  | some (n + 1) => modify fun archive => { archive with writesLeft := some n }

def listIds (kind : RecordKind) (query : List Predicate) : StoreM (Archive codec) (List String) := do
  match (← get).shelves[kind]? with
  | none => return []
  | some shelf => ofExcept (codec.matching query shelf.toList)

def get? (kind : RecordKind) (id : String) : StoreM (Archive codec) (Option Record) := do
  match (← get).shelves.find? ⟨kind, id⟩ with
  | none => return none
  | some bytes => return some (← ofExcept (codec.decode bytes))

def create (r : Record) : StoreM (Archive codec) String := do
  chargeWrite
  let archive ← get
  let id := archive.idAt archive.created
  let bytes ← ofExcept (codec.encode (r.withId id))
  set ({ archive with
    shelves := archive.shelves.put ⟨r.kind, id⟩ bytes
    created := archive.created + 1 } : Archive codec)
  return id

def insert (id : String) (r : Record) : StoreM (Archive codec) Unit := do
  chargeWrite
  let bytes ← ofExcept (codec.encode (r.withId id))
  let archive ← get
  if (archive.shelves.find? ⟨r.kind, id⟩).isNone then throw (.notFound r.kind id)
  set ({ archive with shelves := archive.shelves.put ⟨r.kind, id⟩ bytes } : Archive codec)

def erase (kind : RecordKind) (id : String) : StoreM (Archive codec) Unit := do
  chargeWrite
  let archive ← get
  if (archive.shelves.find? ⟨kind, id⟩).isNone then throw (.notFound kind id)
  set ({ archive with shelves := archive.shelves.remove ⟨kind, id⟩ } : Archive codec)

instance : RecordStore (Archive codec) where
  listIds := listIds
  get? := get?
  create := create
  insert := insert
  erase := erase

instance : Limited (Archive codec) := ⟨limit⟩

/-- The archive holds, for each record of the repository, bytes that are read as this record. -/
structure Holds (archive : Archive codec) (repo : Repository) : Prop where
  records : ∀ k, Option.Rel (fun bytes r => codec.decode bytes = .ok r) (archive.shelves.find? k)
    (repo.table.get? k)
  wellFormed : repo.table.WellFormed
  writesLeft : archive.writesLeft = repo.writesLeft
  idAt : archive.idAt = repo.idAt
  created : archive.created = repo.created

variable {archive : Archive codec} {repo : Repository}

theorem holds_empty (codec : Codec) (idAt : Nat → String) :
    (empty codec idAt).Holds (Repository.empty idAt) where
  records k := by
    have hnone : (∅ : Shelves).find? k = none := by
      rw [Shelves.find?, Std.TreeMap.getElem?_emptyc]
      rfl
    rw [empty, hnone]
    exact .none
  wellFormed := Table.wellFormed_nil
  writesLeft := rfl
  idAt := rfl
  created := rfl

theorem Holds.put (h : archive.Holds repo) {r : Record} {id : String} {bytes : Bytes}
    (hbytes : codec.decode bytes = .ok (r.withId id)) {m n : Nat} (hcreated : m = n) :
    @Holds codec
      { archive with shelves := archive.shelves.put ⟨r.kind, id⟩ bytes, created := m }
      { repo with table := repo.table.put ⟨r.kind, id⟩ (r.withId id), created := n } where
  records k := by
    rw [Shelves.find?_put, Table.get?_put]
    split
    · exact .some hbytes
    · exact h.records k
  wellFormed := h.wellFormed.put (by simp)
  writesLeft := h.writesLeft
  idAt := h.idAt
  created := hcreated

theorem Holds.remove (h : archive.Holds repo) (k : RecordKey) :
    @Holds codec { archive with shelves := archive.shelves.remove k }
      { repo with table := repo.table.erase k } where
  records l := by
    rw [Shelves.find?_remove, Table.get?_erase]
    split
    · exact .none
    · exact h.records l
  wellFormed := h.wellFormed.erase k
  writesLeft := h.writesLeft
  idAt := h.idAt
  created := h.created

theorem Holds.isNone_eq (h : archive.Holds repo) (k : RecordKey) :
    (archive.shelves.find? k).isNone = (repo.table.get? k).isNone := by
  have hrel := h.records k
  generalize archive.shelves.find? k = found, repo.table.get? k = stored at hrel
  cases hrel <;> rfl

theorem Holds.withWrites (h : archive.Holds repo) (n : Option Nat) :
    @Holds codec { archive with writesLeft := n } { repo with writesLeft := n } :=
  ⟨h.records, h.wellFormed, rfl, h.idAt, h.created⟩

theorem agree_chargeWrite : Agree (@Holds codec) Eq chargeWrite Repository.chargeWrite := by
  refine Agree.get_bind fun archive repo h => ?_
  rw [h.writesLeft]
  cases repo.writesLeft with
  | none => exact .pure rfl
  | some n =>
    cases n with
    | zero => exact .throw _
    | succ n => exact .modify fun _ _ h => h.withWrites (some n)

theorem agree_erase (kind : RecordKind) (id : String) :
    Agree (@Holds codec) Eq (erase kind id) (Repository.erase kind id) := by
  refine agree_chargeWrite.bind fun _ _ _ => Agree.get_bind fun archive repo h => ?_
  rw [h.isNone_eq]
  cases (repo.table.get? ⟨kind, id⟩).isNone with
  | true => exact .throw_bind _
  | false => exact fun _ _ _ => .ok rfl (h.remove _)

theorem agree_get? (kind : RecordKind) (id : String) :
    Agree (@Holds codec) Eq (get? kind id) (Repository.get? kind id) := by
  refine Agree.get_bind fun archive repo h => ?_
  have hrel := h.records ⟨kind, id⟩
  generalize archive.shelves.find? ⟨kind, id⟩ = found, repo.table.get? ⟨kind, id⟩ = stored at hrel ⊢
  cases hrel with
  | none => exact .pure rfl
  | some hdecode =>
    simp only [hdecode]
    exact .pure rfl

theorem Holds.find?_eq_some (h : archive.Holds repo) {k : RecordKey} {bytes : Bytes}
    (hbytes : archive.shelves.find? k = some bytes) :
    ∃ r, codec.decode bytes = .ok r ∧ repo.table.get? k = some r := by
  have hrel := h.records k
  rw [hbytes] at hrel
  generalize repo.table.get? k = stored at hrel
  cases hrel with
  | some hdecode => exact ⟨_, hdecode, rfl⟩

theorem Holds.get?_eq_some (h : archive.Holds repo) {k : RecordKey} {r : Record}
    (hr : repo.table.get? k = some r) :
    ∃ bytes, codec.decode bytes = .ok r ∧ archive.shelves.find? k = some bytes := by
  have hrel := h.records k
  rw [hr] at hrel
  generalize archive.shelves.find? k = found at hrel
  cases hrel with
  | some hdecode => exact ⟨_, hdecode, rfl⟩

/-- The keys of a shelf ascend, and so do the ids in a table: both searches find the same ids. -/
theorem matching_eq (h : archive.Holds repo) {kind : RecordKind} {shelf : Shelf}
    (hshelf : archive.shelves[kind]? = some shelf) (query : List Predicate) :
    codec.matching query shelf.toList = .ok (repo.table.ids kind query) := by
  have hfind : ∀ id bytes, (id, bytes) ∈ shelf.toList ↔ archive.shelves.find? ⟨kind, id⟩ = some bytes := by
    intro id bytes
    rw [Std.TreeMap.mem_toList_iff_getElem?_eq_some, Shelves.find?, hshelf]
    rfl
  have hordered := Std.TreeMap.ordered_keys_toList (t := shelf)
  have hascending : (shelf.toList.map Prod.fst).Pairwise (· < ·) :=
    List.pairwise_map.mpr (hordered.imp fun hlt => compareOfLessAndEq_eq_lt.mp hlt)
  obtain ⟨ids, hids, hsub, hmem⟩ := codec.exists_matching query fun e he =>
    (h.find?_eq_some ((hfind _ _).mp he)).imp fun r hr => hr.1
  rw [hids]
  refine congrArg Except.ok ((hascending.sublist hsub).eq_of_mem_iff
    (Table.pairwise_ids h.wellFormed kind query) fun id => ?_)
  rw [hmem, Table.mem_ids_iff h.wellFormed]
  constructor
  · rintro ⟨bytes, r, hbytes, hdecode, hr⟩
    obtain ⟨r', hdecode', hget⟩ := h.find?_eq_some ((hfind _ _).mp hbytes)
    rw [hdecode] at hdecode'
    cases hdecode'
    exact ⟨r, hget, hr⟩
  · rintro ⟨r, hget, hr⟩
    obtain ⟨bytes, hdecode, hfound⟩ := h.get?_eq_some hget
    exact ⟨bytes, r, (hfind _ _).mpr hfound, hdecode, hr⟩

theorem agree_listIds (kind : RecordKind) (query : List Predicate) :
    Agree (@Holds codec) Eq (listIds kind query) (Repository.listIds kind query) := by
  refine Agree.get_bind fun archive repo h => ?_
  cases hshelf : archive.shelves[kind]? with
  | none =>
    have hempty : repo.table.ids kind query = [] := by
      refine List.eq_nil_iff_forall_not_mem.mpr fun id hid => ?_
      obtain ⟨r, hr, -⟩ := (Table.mem_ids_iff h.wellFormed).mp hid
      obtain ⟨bytes, -, hfound⟩ := h.get?_eq_some hr
      rw [Shelves.find?, hshelf] at hfound
      cases hfound
    exact .pure hempty.symm
  | some shelf =>
    simp only [matching_eq h hshelf]
    exact .pure rfl

theorem agree_decode {α : Type} [Stored α] (r : Record) :
    Agree (@Holds codec) Eq (StoreM.decode r : StoreM (Archive codec) α) (StoreM.decode r) := by
  unfold StoreM.decode
  split
  · exact .pure rfl
  · exact .throw _

theorem agree_fetch {α : Type} [Stored α] (id : String) :
    Agree (@Holds codec) Eq (StoreM.fetch α id) (StoreM.fetch α id) := by
  refine (agree_get? (Stored.kind α) id).bind fun r _ h => ?_
  subst h
  cases r with
  | none => exact .throw _
  | some r => exact agree_decode r

section roundTrips
variable (hcodec : codec.RoundTrips)
include hcodec

theorem agree_create (r : Record) : Agree (@Holds codec) Eq (create r) (Repository.create r) := by
  refine agree_chargeWrite.bind fun _ _ _ => Agree.get_bind fun archive repo h => ?_
  have hid : archive.idAt archive.created = repo.idAt repo.created := by rw [h.idAt, h.created]
  obtain ⟨bytes, hencode, hdecode⟩ := hcodec (r.withId (repo.idAt repo.created))
  simp only [hid, hencode]
  exact fun _ _ _ => .ok rfl (h.put hdecode (congrArg (· + 1) h.created))

theorem agree_insert (id : String) (r : Record) :
    Agree (@Holds codec) Eq (insert id r) (Repository.insert id r) := by
  obtain ⟨bytes, hencode, hdecode⟩ := hcodec (r.withId id)
  refine agree_chargeWrite.bind fun _ _ _ => ?_
  simp only [hencode, ofExcept, pure_bind]
  refine Agree.get_bind fun archive repo h => ?_
  rw [h.isNone_eq]
  cases (repo.table.get? ⟨r.kind, id⟩).isNone with
  | true => exact .throw_bind _
  | false => exact fun _ _ _ => .ok rfl (h.put hdecode h.created)

theorem agree_persist {α : Type} [Stored α] (a : α) :
    Agree (@Holds codec) Eq (StoreM.persist a) (StoreM.persist a) := by
  refine (agree_create hcodec (Stored.toRecord a)).bind fun id _ h => ?_
  subst h
  exact agree_decode _

/-- Every call is answered alike, and both stores hold the same records after it. -/
theorem agree_run (c : Call) :
    Agree (@Holds codec) Eq (c.run (σ := Archive codec)) (c.run (σ := Repository)) := by
  cases c with
  | create r => exact (agree_create hcodec r).bind fun _ _ h => .pure (congrArg Answer.id h)
  | insert id r => exact (agree_insert hcodec id r).bind fun _ _ _ => .pure rfl
  | erase kind id => exact (agree_erase kind id).bind fun _ _ _ => .pure rfl
  | get? kind id => exact (agree_get? kind id).bind fun _ _ h => .pure (congrArg Answer.record h)
  | listIds kind query => exact (agree_listIds kind query).bind fun _ _ h => .pure (congrArg Answer.ids h)
  | persist a =>
    exact (agree_persist hcodec a).bind fun a _ h => .pure (h ▸ rfl)
  | put a => exact (agree_insert hcodec _ _).bind fun _ _ _ => .pure rfl
  | fetch α id =>
    exact (agree_fetch id).bind fun a _ h => .pure (h ▸ rfl)
  | remove α id => exact (agree_erase _ id).bind fun _ _ _ => .pure rfl
  | limit writes =>
    refine Agree.bind (.modify fun archive repo h => ?_) fun _ _ _ => .pure rfl
    cases writes <;> exact h.withWrites _

theorem holds_after (c : Call) (h : archive.Holds repo) :
    c.answer archive = c.answer repo ∧ (c.after archive).Holds (c.after repo) := by
  unfold Call.answer Call.after
  obtain ⟨a, t, a', t', hrun, hrun', rfl, ht⟩ | ⟨e, t, t', hrun, hrun', ht⟩ :=
    (agree_run hcodec c archive repo h).ends
  · rw [hrun, hrun']
    exact ⟨rfl, ht⟩
  · rw [hrun, hrun']
    exact ⟨rfl, ht⟩

theorem holds_served (calls : List Call) (h : archive.Holds repo) :
    answers calls archive = answers calls repo ∧ (served calls archive).Holds (served calls repo) := by
  induction calls generalizing archive repo with
  | nil => exact ⟨rfl, h⟩
  | cons c rest ih =>
    obtain ⟨hanswer, hafter⟩ := holds_after hcodec c h
    obtain ⟨hanswers, hserved⟩ := ih hafter
    exact ⟨congrArg₂ List.cons hanswer hanswers, hserved⟩

end roundTrips

/-- Where all that is written is read back and no id is given out twice, any sequence of calls leaves a
repository in which every record stands under its own kind and id, and in which the next call does what it
is for or is refused and changes no table. A store of bytes answers these calls alike, and holds the same
records. -/
theorem calls_consistent {codec : Codec} (hcodec : codec.RoundTrips) {idAt : Nat → String}
    (hids : Function.Injective idAt) (calls : List Call) :
    (served calls (Repository.empty idAt)).Consistent ∧
      answers calls (empty codec idAt) = answers calls (Repository.empty idAt) ∧
      (served calls (empty codec idAt)).Holds (served calls (Repository.empty idAt)) := by
  have hready : (Repository.empty idAt).Ready false :=
    (Repository.ready_empty hids).of_sameIds (.refl _) Table.wellFormed_nil fun _ h => h
  exact ⟨(hready.served calls).consistent, holds_served hcodec calls (holds_empty codec idAt)⟩

def sampleCalls : List Call :=
  [.persist (⟨"own", "u", 10, 20⟩ : Trip), .limit (some 1), .create (.user ⟨"own", "u@v", 5⟩),
    .put (⟨"", "u", 10, 30⟩ : Trip), .limit none, .put (⟨"i", "u", 10, 30⟩ : Trip),
    .insert "" (.trip ⟨"i", "u", 10, 30⟩), .listIds .trip [⟨.start, .ne, .text "10"⟩],
    .listIds .trip [⟨.start, .ne, .int 10⟩], .listIds .trip [⟨.start, .ne, .int 20⟩],
    .listIds .trip [⟨.start, .lt, .int 20⟩, ⟨.user, .ne, .text "v"⟩],
    .listIds .trip [⟨.user, .lt, .text "u"⟩], .listIds .trip [⟨.stop, .gt, .int 20⟩],
    .fetch Trip "", .remove User "i", .get? .user "i"]

def sampleAnswers : List (Except StorageError Answer) :=
  [.ok (.record (some (.trip ⟨"", "u", 10, 20⟩))), .ok .done, .ok (.id "i"),
    .error (.database "injected write failure"), .ok .done, .error (.notFound .trip "i"),
    .ok .done, .ok (.ids []), .ok (.ids []), .ok (.ids [""]), .ok (.ids [""]), .ok (.ids []),
    .ok (.ids [""]), .ok (.record (some (.trip ⟨"", "u", 10, 30⟩))), .ok .done, .ok (.record none)]

theorem calls_consistent_of_sample : Codec.wire.RoundTrips ∧ Function.Injective Repository.unaryId ∧
    (served sampleCalls (Repository.empty Repository.unaryId)).Consistent ∧
    answers sampleCalls (Repository.empty Repository.unaryId) = sampleAnswers ∧
    answers sampleCalls (empty Codec.wire Repository.unaryId) = sampleAnswers := by
  have hanswers : answers sampleCalls (Repository.empty Repository.unaryId) = sampleAnswers := rfl
  obtain ⟨hconsistent, hsame, -⟩ :=
    calls_consistent Codec.roundTrips_wire Repository.unaryId_injective sampleCalls
  exact ⟨Codec.roundTrips_wire, Repository.unaryId_injective, hconsistent, hanswers, hsame.trans hanswers⟩

end Archive

end DriveLog
