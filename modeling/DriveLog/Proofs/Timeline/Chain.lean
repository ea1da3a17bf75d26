import DriveLog.Proofs.Store.Law
import DriveLog.Timeline.Link
set_option autoImplicit false

namespace DriveLog

theorem Source.key_injective : Function.Injective Source.key := by
  intro a b h
  obtain ⟨type, id⟩ := a
  obtain ⟨type', id'⟩ := b
  have hlist := congrArg String.toList h
  cases type <;> cases type' <;> simp [Source.key, SourceType.name, String.toList_append] at hlist <;>
    simp_all [String.toList_inj]

namespace LinkCache

theorem get?_insertAll (keys : List String) (url key : String) (cache : LinkCache) :
    (cache.insertAll keys url).get? key = if key ∈ keys then some url else cache.get? key := by
  unfold insertAll
  induction keys generalizing cache with
  | nil => simp
  | cons k keys ih =>
    rw [List.foldl_cons, ih]
    by_cases hmem : key ∈ keys
    · simp [hmem]
    · by_cases hk : k = key
      · simp [hk]
      · simp [hmem, Ne.symm hk, get?_insert_of_ne hk]

end LinkCache

inductive LinkOf (t : Table) : Source → String → Prop
  | video {id : String} {v : RawVideo} (h : t.get? ⟨.rawVideo, id⟩ = some (.rawVideo v)) :
      LinkOf t ⟨.rawVideo, id⟩ v.file
  | motion {id url : String} {m : RawMotion} {next : Source}
      (h : t.get? ⟨.rawMotion, id⟩ = some (.rawMotion m)) (hm : m.source = some next)
      (hnext : LinkOf t next url) : LinkOf t ⟨.rawMotion, id⟩ url
  | location {id url : String} {l : RawLocation} {next : Source}
      (h : t.get? ⟨.rawLocation, id⟩ = some (.rawLocation l)) (hl : l.source = some next)
      (hnext : LinkOf t next url) : LinkOf t ⟨.rawLocation, id⟩ url

theorem LinkOf.unique {t : Table} {source : Source} {url url' : String} (h : LinkOf t source url)
    (h' : LinkOf t source url') : url = url' := by
  induction h with
  | video h =>
    cases h' with
    | video h' =>
      have hv := h.symm.trans h'
      simp_all
  | motion h hm _ ih =>
    cases h' with
    | motion h' hm' hnext' =>
      have hv := h.symm.trans h'
      exact ih (by simp_all)
  | location h hl _ ih =>
    cases h' with
    | location h' hl' hnext' =>
      have hv := h.symm.trans h'
      exact ih (by simp_all)

/-- A link that a walk can find: the chain ends in the video of that link, or some record of it is
remembered with the link. -/
inductive LinkVia (t : Table) (links : LinkCache) : Source → String → Prop
  | known {source : Source} {url : String} (h : links.get? source.key = some url) :
      LinkVia t links source url
  | video {id : String} {v : RawVideo} (h : t.get? ⟨.rawVideo, id⟩ = some (.rawVideo v)) :
      LinkVia t links ⟨.rawVideo, id⟩ v.file
  | motion {id url : String} {m : RawMotion} {next : Source}
      (h : t.get? ⟨.rawMotion, id⟩ = some (.rawMotion m)) (hm : m.source = some next)
      (hnext : LinkVia t links next url) : LinkVia t links ⟨.rawMotion, id⟩ url
  | location {id url : String} {l : RawLocation} {next : Source}
      (h : t.get? ⟨.rawLocation, id⟩ = some (.rawLocation l)) (hl : l.source = some next)
      (hnext : LinkVia t links next url) : LinkVia t links ⟨.rawLocation, id⟩ url

/-- Of videos and their links `L` holds, and of a sample if it holds of what the sample points at. -/
structure LinkClosed (t : Table) (L : Source → String → Prop) : Prop where
  video : ∀ {id : String} {v : RawVideo}, t.get? ⟨.rawVideo, id⟩ = some (.rawVideo v) →
    L ⟨.rawVideo, id⟩ v.file
  motion : ∀ {id url : String} {m : RawMotion} {next : Source},
    t.get? ⟨.rawMotion, id⟩ = some (.rawMotion m) → m.source = some next → L next url →
    L ⟨.rawMotion, id⟩ url
  location : ∀ {id url : String} {l : RawLocation} {next : Source},
    t.get? ⟨.rawLocation, id⟩ = some (.rawLocation l) → l.source = some next → L next url →
    L ⟨.rawLocation, id⟩ url

theorem linkClosed_linkOf (t : Table) : LinkClosed t (LinkOf t) := ⟨.video, .motion, .location⟩

theorem linkClosed_linkVia (t : Table) (links : LinkCache) : LinkClosed t (LinkVia t links) :=
  ⟨.video, .motion, .location⟩

namespace Timeline
variable {σ : Type} [RecordStore σ] [LawfulStore σ]
open LawfulStore (table Ready)

structure Reads (steady : Bool) (t : Table) (L : Source → String → Prop) (s : Linked σ) : Prop where
  ready : Ready steady s.store
  table_eq : table s.store = t
  links : ∀ source url, s.links.get? source.key = some url → L source url

structure Knows (steady : Bool) (t : Table) (s : Linked σ) : Prop where
  ready : Ready steady s.store
  table_eq : table s.store = t
  links : ∀ source url, s.links.get? source.key = some url → LinkOf t source url

variable {b : Bool} {t : Table} {L : Source → String → Prop} {s : Linked σ} {α : Type}

theorem Knows.reads (hk : Knows b t s) : Reads b t (LinkOf t) s := ⟨hk.ready, hk.table_eq, hk.links⟩

theorem Reads.knows (hk : Reads b t (LinkOf t) s) : Knows b t s := ⟨hk.ready, hk.table_eq, hk.links⟩

theorem ends_during {act : StoreM σ α} {Q : α → Prop} {step : Step} (hk : Reads b t L s)
    (h : Ends act s.store (fun a u => Ready b u ∧ table u = t ∧ Q a)
      (fun _ u => Ready b u ∧ table u = t)) :
    Ends (during step act) s (fun a u => Reads b t L u ∧ Q a) (fun _ u => Reads b t L u) :=
  h.focus (fun _ _ ha => ⟨⟨ha.1, ha.2.1, hk.links⟩, ha.2.2⟩) fun _ _ he => ⟨he.1, he.2, hk.links⟩

theorem ends_fetch [Stored α] [Stored.Lawful α] (hk : Reads b t L s) (step : Step) (id : String) :
    Ends (during step (StoreM.fetch α id)) s
      (fun a u => Reads b t L u ∧ t.get? ⟨Stored.kind α, id⟩ = some (Stored.toRecord a))
      (fun _ u => Reads b t L u) := by
  have hfetch := StoreM.ends_fetch_any (α := α) hk.ready id
  rw [hk.table_eq] at hfetch
  exact ends_during hk hfetch

theorem ends_listIds [Stored α] (hk : Reads b t L s) (step : Step) (query : List Predicate) :
    Ends (during step (StoreM.listIds α query)) s
      (fun ids u => Reads b t L u ∧ ids = t.ids (Stored.kind α) query) (fun _ u => Reads b t L u) := by
  have hlist := StoreM.ends_listIds (α := α) hk.ready query
  rw [hk.table_eq] at hlist
  refine ends_during hk (hlist.mono (fun _ _ ha => ha) fun _ _ he => ⟨he.1, ?_⟩)
  exact he.2.1.trans hk.table_eq

theorem ends_step (hL : LinkClosed t L) (hk : Reads b t L s) (source : Source) :
    Ends (step source) s
      (fun found u => Reads b t L u ∧ (∀ url, found = .inl url → L source url) ∧
        ∀ next, found = .inr (some next) → ∀ url, L next url → L source url)
      (fun _ u => Reads b t L u) := by
  obtain ⟨type, id⟩ := source
  unfold step
  cases type with
  | rawVideo =>
    refine (ends_fetch (α := RawVideo) hk (.gettingVideo id) id).bind fun v u hu => Ends.pure ?_
    exact ⟨hu.1, fun url hurl => Sum.inl.inj hurl ▸ hL.video hu.2, by simp⟩
  | rawMotion =>
    refine (ends_fetch (α := RawMotion) hk (.gettingMotion id) id).bind fun m u hu => Ends.pure ?_
    exact ⟨hu.1, by simp, fun next hm url hnext => hL.motion hu.2 (Sum.inr.inj hm) hnext⟩
  | rawLocation =>
    refine (ends_fetch (α := RawLocation) hk (.gettingLocation id) id).bind fun l u hu =>
      Ends.pure ?_
    exact ⟨hu.1, by simp, fun next hl url hnext => hL.location hu.2 (Sum.inr.inj hl) hnext⟩

theorem ends_remember {keys : List String} {url : String} (hk : Reads b t L s)
    (h : ∀ source, source.key ∈ keys → L source url) :
    Ends (remember (σ := σ) keys url) s (fun _ u => Reads b t L u) (fun _ u => Reads b t L u) := by
  refine ⟨hk.ready, hk.table_eq, fun source url' hget => ?_⟩
  simp only [LinkCache.get?_insertAll] at hget
  split at hget
  · rename_i hmem
    exact Option.some.inj hget ▸ h source hmem
  · exact hk.links source url' hget

/-- The sources that were visited have the link of the current one. -/
theorem ends_follow (hL : LinkClosed t L) (origin : Source) (limit n : Nat) {visited : List String}
    {current : Source} (hk : Reads b t L s)
    (hvisited : ∀ source, source.key ∈ visited →
      ∀ url, L current url → L source url) :
    Ends (follow origin limit n visited current) s
      (fun url u => Reads b t L u ∧ L current url) (fun _ u => Reads b t L u) := by
  induction n generalizing visited current s with
  | zero => exact Ends.throw hk
  | succ n ih =>
    unfold follow
    refine Ends.get_bind ?_
    cases hget : s.links.get? current.key with
    | some url =>
      have hurl := hk.links current url hget
      refine (ends_remember hk fun source hmem => hvisited source hmem url hurl).bind
        fun _ u hu => Ends.pure ⟨hu, hurl⟩
    | none =>
      refine (ends_step hL hk current).bind fun found u hu => ?_
      obtain ⟨hku, hurl, hnext⟩ := hu
      have hvisited' : ∀ source, source.key ∈ visited ++ [current.key] →
          ∀ url, L current url → L source url := by
        intro source hmem url hlink
        rcases List.mem_append.mp hmem with hmem | hmem
        · exact hvisited source hmem url hlink
        · rwa [Source.key_injective (List.mem_singleton.mp hmem)]
      match found with
      | .inl url =>
        refine (ends_remember hku fun source hmem => hvisited' source hmem url (hurl url rfl)).bind
          fun _ v hv => Ends.pure ⟨hv, hurl url rfl⟩
      | .inr none => exact Ends.throw hku
      | .inr (some next) =>
        refine (ih hku fun source hmem url hlink => hvisited' source hmem url ?_).imp
          fun url v hv => ⟨hv.1, hnext next rfl url hv.2⟩
        exact hnext next rfl url hlink

theorem ends_findLink_of_closed (hL : LinkClosed t L) (hk : Reads b t L s) (limit : Nat)
    (source : Source) :
    Ends (findLink limit source) s (fun url u => Reads b t L u ∧ L source url)
      (fun _ u => Reads b t L u) :=
  ends_follow hL source limit limit hk (by simp)

theorem ends_findLink (hk : Knows b t s) (limit : Nat) (source : Source) :
    Ends (findLink limit source) s (fun url u => Knows b t u ∧ LinkOf t source url)
      (fun _ u => Knows b t u) :=
  (ends_findLink_of_closed (linkClosed_linkOf t) hk.reads limit source).mono
    (fun _ _ hu => ⟨hu.1.knows, hu.2⟩) fun _ _ hu => hu.knows

end Timeline

end DriveLog
