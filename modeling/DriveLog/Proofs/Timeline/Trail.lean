import DriveLog.Proofs.Timeline.Walk
import Mathlib.Data.List.Nodup
/-!
Chains of sources, told record by record. The first record of a chain that is missing, is a video or has no
source ends it; a chain can also go on for ever. Main statement: from this and the limit alone follow the
outcome of a walk without known links, the error that is told and the links that are known afterwards.
-/
set_option autoImplicit false

namespace DriveLog

def SourceType.kind : SourceType → RecordKind
  | .rawVideo => .rawVideo
  | .rawMotion => .rawMotion
  | .rawLocation => .rawLocation

def Source.recordKey (s : Source) : RecordKey := ⟨s.type.kind, s.id⟩

def Record.source? : Record → Option Source
  | .rawMotion m => m.source
  | .rawLocation l => l.source
  | _ => none

def Source.reading : Source → Step
  | ⟨.rawVideo, id⟩ => .gettingVideo id
  | ⟨.rawMotion, id⟩ => .gettingMotion id
  | ⟨.rawLocation, id⟩ => .gettingLocation id

/-- The store has these records, each under its own kind, and reading does not change it. There may be
infinitely many. -/
structure Stocks {σ : Type} [RecordStore σ] (store : σ) (records : RecordKey → Option Record) : Prop where
  get? : ∀ kind id, RecordStore.get? kind id store = .ok (records ⟨kind, id⟩) store
  kind_eq : ∀ {k : RecordKey} {r : Record}, records k = some r → r.kind = k.kind

theorem Repository.stocks {repo : Repository} (h : repo.table.WellFormed) :
    Stocks repo repo.table.get? :=
  ⟨fun _ _ => rfl, fun hr => congrArg RecordKey.kind (h.key_of_get? hr)⟩

namespace Source
variable (records : RecordKey → Option Record)

def next? (s : Source) : Option Source := (records s.recordKey).bind Record.source?

/-- The source that a chain comes to in `k` steps, each to what the record there points at. -/
def after (source : Source) : (k : Nat) → Option Source
  | 0 => some source
  | k + 1 => (source.after k).bind (next? records)

def trail (source : Source) (k : Nat) : List Source := (List.range k).filterMap (source.after records)

/-- After `k` samples that have sources comes a video with that link. -/
def VideoAt (source : Source) (k : Nat) (url : String) : Prop :=
  ∃ s v, source.after records k = some s ∧ records s.recordKey = some (.rawVideo v) ∧ v.file = url

def MissingAt (source : Source) (k : Nat) (s : Source) : Prop :=
  source.after records k = some s ∧ records s.recordKey = none

/-- After `k` samples that have sources comes one that has none, the record of `s`. -/
def SourcelessAt (source : Source) (k : Nat) (s : Source) : Prop :=
  source.after records k = some s ∧
    ∃ r, records s.recordKey = some r ∧ r.kind ≠ .rawVideo ∧ r.source? = none

variable {records} {source s t : Source} {k m n : Nat} {url : String}

theorem after_add (source : Source) (m n : Nat) :
    source.after records (m + n) = (source.after records m).bind fun s => s.after records n := by
  induction n with
  | zero => simp [after]
  | succ n ih => rw [← Nat.add_assoc, after, ih, Option.bind_assoc]; rfl

theorem after_succ_eq_some_iff : source.after records (k + 1) = some s ↔
    ∃ t, source.after records k = some t ∧ t.next? records = some s :=
  Option.bind_eq_some_iff

theorem trail_succ (h : source.after records k = some s) :
    source.trail records (k + 1) = source.trail records k ++ [s] := by
  simp [trail, List.range_succ, List.filterMap_append, h]

theorem exists_of_next? (h : s.next? records = some t) :
    ∃ r, records s.recordKey = some r ∧ r.kind ≠ .rawVideo ∧ r.source? = some t := by
  obtain ⟨r, hr, hsource⟩ := Option.bind_eq_some_iff.mp h
  refine ⟨r, hr, fun hkind => ?_, hsource⟩
  cases r with
  | rawVideo v => cases hsource
  | _ => cases hkind

theorem VideoAt.ends (h : source.VideoAt records k url) : source.after records (k + 1) = none := by
  obtain ⟨s, v, hs, hv, -⟩ := h
  rw [after, hs, Option.bind_some, next?, hv]
  rfl

theorem after_eq_none (h : source.after records m = none) (hle : m ≤ n) :
    source.after records n = none := by
  obtain ⟨d, rfl⟩ := Nat.exists_eq_add_of_le hle
  rw [after_add, h]
  rfl

theorem VideoAt.unique {url' : String} (h : source.VideoAt records k url)
    (h' : source.VideoAt records m url') : k = m := by
  have not_later : ∀ {i j : Nat} {u u' : String}, source.VideoAt records i u →
      source.VideoAt records j u' → ¬ i < j := by
    intro i j u u' hi ⟨s, _, hs, _⟩ hlt
    rw [after_eq_none hi.ends hlt] at hs
    cases hs
  exact Nat.le_antisymm (Nat.not_lt.mp (not_later h' h)) (Nat.not_lt.mp (not_later h h'))

/-- No source comes twice on the way to a video: it would come again and again. -/
theorem VideoAt.after_injective (h : source.VideoAt records k url) {i j : Nat}
    (hi : source.after records i = some s) (hj : source.after records j = some s) : i = j := by
  obtain ⟨t, v, ht, hv, hurl⟩ := h
  have before : ∀ {i : Nat}, source.after records i = some s → i ≤ k ∧ s.VideoAt records (k - i) url := by
    intro i hi
    have hle : i ≤ k := by
      refine Nat.le_of_not_lt fun hlt => ?_
      rw [after_eq_none (VideoAt.ends ⟨t, v, ht, hv, hurl⟩) hlt] at hi
      cases hi
    refine ⟨hle, t, v, ?_, hv, hurl⟩
    rw [← ht, ← Nat.add_sub_cancel' hle, after_add, hi, Nat.add_sub_cancel_left]
    rfl
  obtain ⟨hik, hi⟩ := before hi
  obtain ⟨hjk, hj⟩ := before hj
  have heq := hi.unique hj
  omega

theorem VideoAt.nodup_trail (h : source.VideoAt records k url) (n : Nat) :
    ((source.trail records n).map Source.key).Nodup := by
  refine List.Nodup.map Source.key_injective (List.Nodup.filterMap ?_ List.nodup_range)
  exact fun i j s hi hj => h.after_injective hi hj

/-- The first `n` records of a chain hold its end, or the chain goes on behind them. -/
theorem ends_or_goes_on (records : RecordKey → Option Record) (source : Source) (n : Nat) :
    (∃ k < n, (∃ url, source.VideoAt records k url) ∨ (∃ s, source.MissingAt records k s) ∨
      ∃ s, source.SourcelessAt records k s) ∨ ∃ s, source.after records n = some s := by
  induction n with
  | zero => exact .inr ⟨source, rfl⟩
  | succ n ih =>
    rcases ih with ⟨k, hk, hend⟩ | ⟨s, hs⟩
    · exact .inl ⟨k, Nat.lt_succ_of_lt hk, hend⟩
    · cases hr : records s.recordKey with
      | none => exact .inl ⟨n, Nat.lt_succ_self n, .inr (.inl ⟨s, hs, hr⟩)⟩
      | some r =>
        by_cases hvideo : ∃ v, r = .rawVideo v
        · obtain ⟨v, rfl⟩ := hvideo
          exact .inl ⟨n, Nat.lt_succ_self n, .inl ⟨v.file, s, v, hs, hr, rfl⟩⟩
        · have hkind : r.kind ≠ .rawVideo := fun hkind => hvideo (by cases r <;> cases hkind; exact ⟨_, rfl⟩)
          cases hsource : r.source? with
          | none => exact .inl ⟨n, Nat.lt_succ_self n, .inr (.inr ⟨s, hs, r, hr, hkind, hsource⟩)⟩
          | some t => exact .inr ⟨t, by rw [after, hs, Option.bind_some, next?, hr]; exact hsource⟩

end Source

namespace LinkCache

theorem insert_of_new {cache : LinkCache} {key : String} (h : key ∉ cache.map Prod.fst) (url : String) :
    cache.insert key url = cache ++ [(key, url)] := by
  induction cache with
  | nil => rfl
  | cons e cache ih =>
    rw [List.map_cons, List.mem_cons, not_or] at h
    rw [insert, if_neg (Ne.symm h.1), ih h.2, List.cons_append]

theorem insertAll_of_new (cache : LinkCache) {keys : List String} (hnodup : keys.Nodup)
    (h : ∀ key ∈ keys, key ∉ cache.map Prod.fst) (url : String) :
    cache.insertAll keys url = cache ++ keys.map fun key => (key, url) := by
  induction keys generalizing cache with
  | nil => simp [insertAll]
  | cons key keys ih =>
    obtain ⟨hkey, hrest⟩ := List.nodup_cons.mp hnodup
    have hfirst := insert_of_new (h key List.mem_cons_self) url
    have hcons : cache.insertAll (key :: keys) url = (cache.insert key url).insertAll keys url := rfl
    rw [hcons, hfirst, ih _ hrest, List.append_assoc]
    · rfl
    · intro k hk hmem
      rw [List.map_append, List.mem_append] at hmem
      rcases hmem with hmem | hmem
      · exact h k (List.mem_cons_of_mem _ hk) hmem
      · obtain rfl : k = key := List.mem_singleton.mp hmem
        exact hkey hk

end LinkCache

namespace Timeline
variable {σ : Type} [RecordStore σ] {store : σ} {records : RecordKey → Option Record}
  {origin source s : Source} {limit k n : Nat} {keys : List String} {url : String} {e : TimelineError}

section stocks
variable {α : Type} [Stored α] [Stored.Lawful α] {id : String}

theorem fetch_of_stocked (h : Stocks store records) {a : α}
    (ha : records ⟨Stored.kind α, id⟩ = some (Stored.toRecord a)) :
    StoreM.fetch α id store = .ok a store := by
  unfold StoreM.fetch
  rw [bind_of_eq_ok (h.get? (Stored.kind α) id), ha]
  simp only [StoreM.decode_toRecord]
  rfl

theorem fetch_of_missing (α : Type) [Stored α] (h : Stocks store records)
    (hnone : records ⟨Stored.kind α, id⟩ = none) :
    StoreM.fetch α id store = .error (.notFound (Stored.kind α) id) store := by
  unfold StoreM.fetch
  rw [bind_of_eq_ok (h.get? (Stored.kind α) id), hnone]
  rfl

end stocks

theorem gives_video (h : Stocks store records) {v : RawVideo}
    (hv : records s.recordKey = some (.rawVideo v)) : Gives store (step s) (.inl v.file) := by
  obtain ⟨type, id⟩ := s
  have hkind := h.kind_eq hv
  cases type with
  | rawVideo => exact (gives_during (fetch_of_stocked h hv) _).bind fun _ => rfl
  | rawMotion => cases hkind
  | rawLocation => cases hkind

theorem gives_source (h : Stocks store records) {r : Record} (hr : records s.recordKey = some r)
    (hraw : r.kind ≠ .rawVideo) : Gives store (step s) (.inr r.source?) := by
  obtain ⟨type, id⟩ := s
  have hkind := h.kind_eq hr
  cases type with
  | rawVideo => exact absurd hkind hraw
  | rawMotion =>
    obtain ⟨m, rfl⟩ := (Stored.Lawful.kind_eq_iff (α := RawMotion)).mp hkind
    exact (gives_during (fetch_of_stocked h hr) _).bind fun _ => rfl
  | rawLocation =>
    obtain ⟨l, rfl⟩ := (Stored.Lawful.kind_eq_iff (α := RawLocation)).mp hkind
    exact (gives_during (fetch_of_stocked h hr) _).bind fun _ => rfl

theorem refuses_missing (h : Stocks store records) (hnone : records s.recordKey = none) :
    Refuses store (step s) (.storage s.reading (.notFound s.type.kind s.id)) := by
  obtain ⟨type, id⟩ := s
  cases type with
  | rawVideo => exact (refuses_during (fetch_of_missing RawVideo h hnone) _).bind
  | rawMotion => exact (refuses_during (fetch_of_missing RawMotion h hnone) _).bind
  | rawLocation => exact (refuses_during (fetch_of_missing RawLocation h hnone) _).bind

/-! By induction on the steps: a walk that has come to a source goes on as one from there. -/

theorem finds_of_after (h : Stocks store records) (hs : source.after records k = some s)
    (hfinds : Finds store [] n s keys url) :
    Finds store [] (k + n) source ((source.trail records k).map Source.key ++ keys) url := by
  induction k generalizing s n keys with
  | zero =>
    obtain rfl := Option.some.inj hs
    simpa [Source.trail] using hfinds
  | succ k ih =>
    obtain ⟨t, ht, hnext⟩ := Source.after_succ_eq_some_iff.mp hs
    obtain ⟨r, hr, hraw, hsource⟩ := Source.exists_of_next? hnext
    have hgives := gives_source h hr hraw
    rw [hsource] at hgives
    rw [Source.trail_succ ht, List.map_append, List.append_assoc, Nat.add_right_comm, Nat.add_assoc]
    exact ih ht (.next rfl hgives hfinds)

theorem misses_of_after (h : Stocks store records) (hs : source.after records k = some s)
    (hmisses : Misses store [] origin limit n s e) :
    Misses store [] origin limit (k + n) source e := by
  induction k generalizing s n with
  | zero =>
    obtain rfl := Option.some.inj hs
    rwa [Nat.zero_add]
  | succ k ih =>
    obtain ⟨t, ht, hnext⟩ := Source.after_succ_eq_some_iff.mp hs
    obtain ⟨r, hr, hraw, hsource⟩ := Source.exists_of_next? hnext
    have hgives := gives_source h hr hraw
    rw [hsource] at hgives
    rw [Nat.add_right_comm, Nat.add_assoc]
    exact ih ht (.next rfl hgives hmisses)

theorem findLink_of_videoAt (h : Stocks store records) (hk : k < limit)
    (hvideo : source.VideoAt records k url) :
    findLink limit source ⟨store, []⟩ =
      .ok url ⟨store, (source.trail records (k + 1)).map fun s => (s.key, url)⟩ := by
  have hlinks := LinkCache.insertAll_of_new [] (hvideo.nodup_trail (k + 1)) (by simp) url
  obtain ⟨s, v, hs, hv, rfl⟩ := hvideo
  obtain ⟨n, rfl⟩ := Nat.exists_eq_add_of_lt hk
  have hfinds : Finds store [] (k + (n + 1)) source
      ((source.trail records k).map Source.key ++ [s.key]) v.file :=
    finds_of_after h hs (.video rfl (gives_video h hv))
  have htrail : (source.trail records (k + 1)).map Source.key =
      (source.trail records k).map Source.key ++ [s.key] := by
    rw [Source.trail_succ hs, List.map_append, List.map_singleton]
  rw [Nat.add_assoc, findLink_of_finds hfinds, ← htrail, hlinks, List.nil_append, List.map_map]
  rfl

/-- What a search over at most `limit` records fails with. -/
inductive Fails (records : RecordKey → Option Record) (source : Source) (limit : Nat) :
    TimelineError → Prop
  | missing {k : Nat} {s : Source} (hk : k < limit) (h : source.MissingAt records k s) :
      Fails records source limit (.storage s.reading (.notFound s.type.kind s.id))
  | sourceless {k : Nat} {s : Source} (hk : k < limit) (h : source.SourcelessAt records k s) :
      Fails records source limit (.badState (.brokenChain s source))
  | endless {s : Source} (h : source.after records limit = some s) :
      Fails records source limit (.badState (.endlessChain source limit))

theorem Fails.misses (h : Stocks store records) (hfails : Fails records source limit e) :
    Misses store [] source limit limit source e := by
  cases hfails with
  | missing hk hmissing =>
    obtain ⟨n, rfl⟩ := Nat.exists_eq_add_of_lt hk
    rw [Nat.add_assoc]
    exact misses_of_after h hmissing.1 (.unread rfl (refuses_missing h hmissing.2))
  | sourceless hk hsourceless =>
    obtain ⟨n, rfl⟩ := Nat.exists_eq_add_of_lt hk
    obtain ⟨hs, r, hr, hraw, hnone⟩ := hsourceless
    have hgives := gives_source h hr hraw
    rw [hnone] at hgives
    rw [Nat.add_assoc]
    exact misses_of_after h hs (.broken rfl hgives)
  | endless hs => exact misses_of_after (n := 0) h hs .endless

theorem Fails.findLink (hfails : Fails records source limit e) (h : Stocks store records) :
    findLink limit source ⟨store, []⟩ = .error e ⟨store, []⟩ :=
  findLink_of_misses (hfails.misses h)

theorem videoAt_or_fails (records : RecordKey → Option Record) (source : Source) (limit : Nat) :
    (∃ k < limit, ∃ url, source.VideoAt records k url) ∨ ∃ e, Fails records source limit e := by
  rcases Source.ends_or_goes_on records source limit with
    ⟨k, hk, hvideo | ⟨s, hmissing⟩ | ⟨s, hsourceless⟩⟩ | ⟨s, hs⟩
  · exact .inl ⟨k, hk, hvideo⟩
  · exact .inr ⟨_, .missing hk hmissing⟩
  · exact .inr ⟨_, .sourceless hk hsourceless⟩
  · exact .inr ⟨_, .endless hs⟩

theorem findLink_eq_ok_iff (h : Stocks store records) {u : Linked σ} :
    findLink limit source ⟨store, []⟩ = .ok url u ↔
      ∃ k < limit, source.VideoAt records k url ∧
        u = ⟨store, (source.trail records (k + 1)).map fun s => (s.key, url)⟩ := by
  constructor
  · intro hfound
    rcases videoAt_or_fails records source limit with ⟨k, hk, url', hvideo⟩ | ⟨e, hfails⟩
    · rw [findLink_of_videoAt h hk hvideo] at hfound
      cases hfound
      exact ⟨k, hk, hvideo, rfl⟩
    · rw [hfails.findLink h] at hfound
      cases hfound
  · rintro ⟨k, hk, hvideo, rfl⟩
    exact findLink_of_videoAt h hk hvideo

theorem findLink_eq_error_iff (h : Stocks store records) {u : Linked σ} :
    findLink limit source ⟨store, []⟩ = .error e u ↔ Fails records source limit e ∧ u = ⟨store, []⟩ := by
  constructor
  · intro hfailed
    rcases videoAt_or_fails records source limit with ⟨k, hk, url, hvideo⟩ | ⟨e', hfails⟩
    · rw [findLink_of_videoAt h hk hvideo] at hfailed
      cases hfailed
    · rw [hfails.findLink h] at hfailed
      cases hfailed
      exact ⟨hfails, rfl⟩
  · rintro ⟨hfails, rfl⟩
    exact hfails.findLink h

/-- The outcome of a search without known links. It finds the link of a video exactly if one of the first
`limit` records of the chain is this video and all before it are samples that have sources; then it knows
the sources of these records, each with that link, and no others. Else it knows none. A record is told to
be missing exactly if one of the first `limit` is and all before it are samples that have sources. What is
stored is told to be bad exactly if the same holds of a sample without a source, or of all of the first
`limit` records. -/
theorem findLink_exact (h : Stocks store records) (limit : Nat) (source : Source) :
    (∀ url u, findLink limit source ⟨store, []⟩ = .ok url u ↔
      ∃ k < limit, source.VideoAt records k url ∧
        u = ⟨store, (source.trail records (k + 1)).map fun s => (s.key, url)⟩) ∧
    (∀ e u, findLink limit source ⟨store, []⟩ = .error e u →
      (e.isNotFound = true ∨ e.isBadState = true) ∧ u = ⟨store, []⟩) ∧
    ((∃ e u, findLink limit source ⟨store, []⟩ = .error e u ∧ e.isNotFound = true) ↔
      ∃ k < limit, ∃ s, source.MissingAt records k s) ∧
    ((∃ e u, findLink limit source ⟨store, []⟩ = .error e u ∧ e.isBadState = true) ↔
      (∃ k < limit, ∃ s, source.SourcelessAt records k s) ∨
        ∃ s, source.after records limit = some s) := by
  simp only [findLink_eq_error_iff h]
  refine ⟨fun url u => findLink_eq_ok_iff h, ?_, ?_, ?_⟩
  · rintro e u ⟨hfails, rfl⟩
    cases hfails with
    | missing => exact ⟨.inl rfl, rfl⟩
    | sourceless => exact ⟨.inr rfl, rfl⟩
    | endless => exact ⟨.inr rfl, rfl⟩
  · constructor
    · rintro ⟨e, u, ⟨hfails, -⟩, he⟩
      cases hfails with
      | missing hk hmissing => exact ⟨_, hk, _, hmissing⟩
      | sourceless => cases he
      | endless => cases he
    · rintro ⟨k, hk, s, hmissing⟩
      exact ⟨_, _, ⟨.missing hk hmissing, rfl⟩, rfl⟩
  · constructor
    · rintro ⟨e, u, ⟨hfails, -⟩, he⟩
      cases hfails with
      | missing => cases he
      | sourceless hk hsourceless => exact .inl ⟨_, hk, _, hsourceless⟩
      | endless hs => exact .inr ⟨_, hs⟩
    · rintro (⟨k, hk, s, hsourceless⟩ | ⟨s, hs⟩)
      · exact ⟨_, _, ⟨.sourceless hk hsourceless, rfl⟩, rfl⟩
      · exact ⟨_, _, ⟨.endless hs, rfl⟩, rfl⟩

def sampleFootage : Repository where
  table := [(⟨.rawVideo, "v"⟩, .rawVideo ⟨"v", "ann", 1, 9, "drive.mp4"⟩),
    (⟨.rawMotion, "a"⟩, .rawMotion ⟨"a", "ann", 2, ⟨0⟩, ⟨0⟩, some ⟨.rawLocation, "b"⟩⟩),
    (⟨.rawMotion, "m"⟩, .rawMotion ⟨"m", "ann", 2, ⟨0⟩, ⟨0⟩, some ⟨.rawVideo, "v"⟩⟩),
    (⟨.rawLocation, "b"⟩, .rawLocation ⟨"b", "ann", 2, ⟨⟨0⟩, ⟨0⟩⟩, some ⟨.rawMotion, "a"⟩⟩),
    (⟨.rawLocation, "l"⟩, .rawLocation ⟨"l", "ann", 2, ⟨⟨0⟩, ⟨0⟩⟩, some ⟨.rawMotion, "m"⟩⟩),
    (⟨.rawLocation, "x"⟩, .rawLocation ⟨"x", "ann", 2, ⟨⟨0⟩, ⟨0⟩⟩, some ⟨.rawMotion, "gone"⟩⟩)]
  writesLeft := none
  idAt := Repository.unaryId
  created := 0

theorem sampleFootage_stocks : Stocks sampleFootage sampleFootage.table.get? :=
  Repository.stocks ⟨by decide, by decide⟩

theorem findLink_exact_of_sample :
    Stocks sampleFootage sampleFootage.table.get? ∧
      findLink 3 ⟨.rawLocation, "l"⟩ ⟨sampleFootage, []⟩ = .ok "drive.mp4" ⟨sampleFootage,
        [("RAW_LOCATION/l", "drive.mp4"), ("RAW_MOTION/m", "drive.mp4"), ("RAW_VIDEO/v", "drive.mp4")]⟩ ∧
      (∃ e u, findLink 5 ⟨.rawMotion, "a"⟩ ⟨sampleFootage, []⟩ = .error e u ∧ e.isBadState = true) ∧
      ∃ e u, findLink 2 ⟨.rawLocation, "x"⟩ ⟨sampleFootage, []⟩ = .error e u ∧ e.isNotFound = true := by
  have hstocks := sampleFootage_stocks
  refine ⟨hstocks, ?_, ?_, ?_⟩
  · exact ((findLink_exact hstocks 3 ⟨.rawLocation, "l"⟩).1 _ _).mpr
      ⟨2, by decide, ⟨⟨.rawVideo, "v"⟩, _, rfl, rfl, rfl⟩, rfl⟩
  · exact (findLink_exact hstocks 5 ⟨.rawMotion, "a"⟩).2.2.2.mpr (.inr ⟨⟨.rawLocation, "b"⟩, rfl⟩)
  · exact (findLink_exact hstocks 2 ⟨.rawLocation, "x"⟩).2.2.1.mpr
      ⟨1, by decide, ⟨.rawMotion, "gone"⟩, rfl, rfl⟩

end Timeline
end DriveLog
