import DriveLog.Proofs.Timeline.Chain
/-!
Walks along chains of sources, in a store that reading does not change. A walk either finds the link of
a video or a remembered one, or it meets a record that leads nowhere, or the limit. What is remembered
stays right: each link is that of the chain of its source, and a chain is remembered from some record on
to its end.
-/
set_option autoImplicit false

namespace DriveLog
section still
variable {σ : Type} [RecordStore σ]

structure Still (store : σ) : Prop where
  listIds : ∀ kind query,
    Ends (RecordStore.listIds kind query) store (fun _ t => t = store) fun _ t => t = store
  get? : ∀ kind id, Ends (RecordStore.get? kind id) store (fun _ t => t = store) fun _ t => t = store

theorem Repository.still (repo : Repository) : Still repo := ⟨fun _ _ => rfl, fun _ _ => rfl⟩

variable {store : σ} {α : Type} [Stored α]

theorem Still.ends_fetch (h : Still store) (id : String) :
    Ends (StoreM.fetch α id) store (fun _ t => t = store) fun _ t => t = store := by
  unfold StoreM.fetch
  refine (h.get? (Stored.kind α) id).bind fun r t ht => ?_
  subst ht
  cases r with
  | none => exact Ends.throw rfl
  | some r =>
    simp only [StoreM.decode]
    split
    · exact Ends.pure rfl
    · exact Ends.throw rfl

/-- The chain from a source has `n` records and ends in a video with that link. -/
inductive ChainTo (store : σ) : Nat → Source → String → Prop
  | video {id : String} {v : RawVideo} (h : StoreM.fetch RawVideo id store = .ok v store) :
      ChainTo store 1 ⟨.rawVideo, id⟩ v.file
  | motion {n : Nat} {id url : String} {m : RawMotion} {next : Source}
      (h : StoreM.fetch RawMotion id store = .ok m store) (hm : m.source = some next)
      (hnext : ChainTo store n next url) : ChainTo store (n + 1) ⟨.rawMotion, id⟩ url
  | location {n : Nat} {id url : String} {l : RawLocation} {next : Source}
      (h : StoreM.fetch RawLocation id store = .ok l store) (hl : l.source = some next)
      (hnext : ChainTo store n next url) : ChainTo store (n + 1) ⟨.rawLocation, id⟩ url

def LeadsTo (store : σ) (source : Source) (url : String) : Prop := ∃ n, ChainTo store n source url

theorem ChainTo.pos {n : Nat} {source : Source} {url : String} (h : ChainTo store n source url) :
    0 < n := by
  cases h <;> simp

theorem ChainTo.unique {n n' : Nat} {source : Source} {url url' : String}
    (h : ChainTo store n source url) (h' : ChainTo store n' source url') : n = n' ∧ url = url' := by
  induction h generalizing n' with
  | video h =>
    cases h' with
    | video h' =>
      have heq := h.symm.trans h'
      cases heq
      exact ⟨rfl, rfl⟩
  | motion h hm _ ih =>
    cases h' with
    | motion h' hm' hnext' =>
      have heq := h.symm.trans h'
      cases heq
      obtain rfl := Option.some.inj (hm.symm.trans hm')
      exact (ih hnext').imp (congrArg (· + 1)) id
  | location h hl _ ih =>
    cases h' with
    | location h' hl' hnext' =>
      have heq := h.symm.trans h'
      cases heq
      obtain rfl := Option.some.inj (hl.symm.trans hl')
      exact (ih hnext').imp (congrArg (· + 1)) id

theorem LeadsTo.unique {source : Source} {url url' : String} (h : LeadsTo store source url)
    (h' : LeadsTo store source url') : url = url' := by
  obtain ⟨_, h⟩ := h
  obtain ⟨_, h'⟩ := h'
  exact (h.unique h').2

end still

namespace Timeline
variable {σ : Type} {store : σ} {α β : Type}

/-- The action gives the value, whatever links are known, and changes nothing. -/
def Gives (store : σ) (act : TimelineM σ α) (a : α) : Prop :=
  ∀ links, act ⟨store, links⟩ = .ok a ⟨store, links⟩

def Refuses (store : σ) (act : TimelineM σ α) (e : TimelineError) : Prop :=
  ∀ links, act ⟨store, links⟩ = .error e ⟨store, links⟩

theorem Gives.unique {act : TimelineM σ α} {a b : α} (h : Gives store act a) (h' : Gives store act b) :
    a = b := by
  have heq := (h []).symm.trans (h' [])
  cases heq
  rfl

theorem Gives.not_refuses {act : TimelineM σ α} {a : α} {e : TimelineError} (h : Gives store act a) :
    ¬ Refuses store act e := by
  intro h'
  have heq := (h []).symm.trans (h' [])
  cases heq

theorem gives_during {act : StoreM σ α} {a : α} (h : act store = .ok a store) (step : Step) :
    Gives store (during step act) a := by
  intro links
  simp only [during, focus, h]

theorem refuses_during {act : StoreM σ α} {e : StorageError} (h : act store = .error e store)
    (step : Step) : Refuses store (during step act) (.storage step e) := by
  intro links
  simp only [during, focus, h]

theorem Gives.bind {act : TimelineM σ α} {next : α → TimelineM σ β} {a : α} {b : β}
    (h : Gives store act a) (hn : Gives store (next a) b) : Gives store (act >>= next) b :=
  fun links => (bind_of_eq_ok (h links)).trans (hn links)

theorem Refuses.bind {act : TimelineM σ α} {next : α → TimelineM σ β} {e : TimelineError}
    (h : Refuses store act e) : Refuses store (act >>= next) e :=
  fun links => bind_of_eq_error (h links)

variable [RecordStore σ]

theorem gives_or_refuses [Stored α] (hstill : Still store) (for' : Step) (id : String) (f : α → β) :
    (∃ b, Gives store (during for' (StoreM.fetch α id) >>= fun a => pure (f a)) b) ∨
      ∃ e, Refuses store (during for' (StoreM.fetch α id) >>= fun a => pure (f a)) e := by
  have hends := hstill.ends_fetch (α := α) id
  cases hfetch : StoreM.fetch α id store with
  | ok a t =>
    obtain rfl := hends.of_eq_ok hfetch
    exact .inl ⟨f a, (gives_during hfetch for').bind fun _ => rfl⟩
  | error e t =>
    obtain rfl := hends.of_eq_error hfetch
    exact .inr ⟨_, (refuses_during hfetch for').bind⟩

theorem step_video (id : String) : step (σ := σ) ⟨.rawVideo, id⟩ =
    during (.gettingVideo id) (StoreM.fetch RawVideo id) >>= fun v => pure (.inl v.file) := rfl

theorem step_motion (id : String) : step (σ := σ) ⟨.rawMotion, id⟩ =
    during (.gettingMotion id) (StoreM.fetch RawMotion id) >>= fun m => pure (.inr m.source) := rfl

theorem step_location (id : String) : step (σ := σ) ⟨.rawLocation, id⟩ =
    during (.gettingLocation id) (StoreM.fetch RawLocation id) >>= fun l => pure (.inr l.source) := rfl

theorem step_gives_or_refuses (hstill : Still store) (source : Source) :
    (∃ found, Gives store (step source) found) ∨ ∃ e, Refuses store (step source) e := by
  obtain ⟨type, id⟩ := source
  cases type with
  | rawVideo =>
    rw [step_video]
    exact gives_or_refuses hstill _ id _
  | rawMotion =>
    rw [step_motion]
    exact gives_or_refuses hstill _ id _
  | rawLocation =>
    rw [step_location]
    exact gives_or_refuses hstill _ id _

theorem Gives.exists_fetch [Stored α] {for' : Step} {id : String} {f : α → β} {b : β}
    (h : Gives store (during for' (StoreM.fetch α id) >>= fun a => pure (f a)) b) :
    ∃ a, StoreM.fetch α id store = .ok a store ∧ f a = b := by
  have hrun := h []
  cases hfetch : StoreM.fetch α id store with
  | ok a t =>
    have hread : during for' (StoreM.fetch α id) ⟨store, []⟩ = .ok a ⟨t, []⟩ := by
      simp only [during, focus, hfetch]
    rw [bind_of_eq_ok hread] at hrun
    cases hrun
    exact ⟨a, rfl, rfl⟩
  | error e t =>
    have hread : during for' (StoreM.fetch α id) ⟨store, []⟩ = .error (.storage for' e) ⟨t, []⟩ := by
      simp only [during, focus, hfetch]
    rw [bind_of_eq_error hread] at hrun
    cases hrun

section chains
variable {source next : Source} {n : Nat} {url : String}

theorem hop_of_chainTo (h : ChainTo store n source url) :
    n = 1 ∧ Gives store (step source) (.inl url) ∨
      ∃ m next, n = m + 1 ∧ Gives store (step source) (.inr (some next)) ∧
        ChainTo store m next url := by
  cases h with
  | video h => exact .inl ⟨rfl, (gives_during h _).bind fun _ => rfl⟩
  | motion h hm hnext =>
    exact .inr ⟨_, _, rfl, (gives_during h _).bind fun _ => by rw [hm]; rfl, hnext⟩
  | location h hl hnext =>
    exact .inr ⟨_, _, rfl, (gives_during h _).bind fun _ => by rw [hl]; rfl, hnext⟩

theorem leadsTo_of_video (h : Gives store (step source) (.inl url)) : LeadsTo store source url := by
  obtain ⟨type, id⟩ := source
  cases type with
  | rawVideo =>
    rw [step_video] at h
    obtain ⟨v, hfetch, hv⟩ := h.exists_fetch
    cases hv
    exact ⟨1, .video hfetch⟩
  | rawMotion =>
    rw [step_motion] at h
    obtain ⟨m, -, hm⟩ := h.exists_fetch
    cases hm
  | rawLocation =>
    rw [step_location] at h
    obtain ⟨l, -, hl⟩ := h.exists_fetch
    cases hl

theorem leadsTo_of_next (h : Gives store (step source) (.inr (some next)))
    (hnext : LeadsTo store next url) : LeadsTo store source url := by
  obtain ⟨n, hnext⟩ := hnext
  obtain ⟨type, id⟩ := source
  cases type with
  | rawVideo =>
    rw [step_video] at h
    obtain ⟨v, -, hv⟩ := h.exists_fetch
    cases hv
  | rawMotion =>
    rw [step_motion] at h
    obtain ⟨m, hfetch, hm⟩ := h.exists_fetch
    exact ⟨n + 1, .motion hfetch (Sum.inr.inj hm) hnext⟩
  | rawLocation =>
    rw [step_location] at h
    obtain ⟨l, hfetch, hl⟩ := h.exists_fetch
    exact ⟨n + 1, .location hfetch (Sum.inr.inj hl) hnext⟩

end chains

/-- A walk over the records of at most `n` sources finds the link; the keys are those of the sources
whose records it reads. -/
inductive Finds (store : σ) (links : LinkCache) : Nat → Source → List String → String → Prop
  | known {n : Nat} {source : Source} {url : String} (h : links.get? source.key = some url) :
      Finds store links (n + 1) source [] url
  | video {n : Nat} {source : Source} {url : String} (hnew : links.get? source.key = none)
      (h : Gives store (step source) (.inl url)) : Finds store links (n + 1) source [source.key] url
  | next {n : Nat} {source next : Source} {keys : List String} {url : String}
      (hnew : links.get? source.key = none) (h : Gives store (step source) (.inr (some next)))
      (hrest : Finds store links n next keys url) :
      Finds store links (n + 1) source (source.key :: keys) url

inductive Misses (store : σ) (links : LinkCache) (origin : Source) (limit : Nat) :
    Nat → Source → TimelineError → Prop
  | endless {source : Source} :
      Misses store links origin limit 0 source (.badState (.endlessChain origin limit))
  | unread {n : Nat} {source : Source} {e : TimelineError} (hnew : links.get? source.key = none)
      (h : Refuses store (step source) e) : Misses store links origin limit (n + 1) source e
  | broken {n : Nat} {source : Source} (hnew : links.get? source.key = none)
      (h : Gives store (step source) (.inr none)) :
      Misses store links origin limit (n + 1) source (.badState (.brokenChain source origin))
  | next {n : Nat} {source next : Source} {e : TimelineError} (hnew : links.get? source.key = none)
      (h : Gives store (step source) (.inr (some next)))
      (hrest : Misses store links origin limit n next e) :
      Misses store links origin limit (n + 1) source e

section walks
variable {links : LinkCache} {origin source : Source} {limit n : Nat} {visited keys : List String}
  {url : String} {e : TimelineError}

theorem finds_or_misses (hstill : Still store) (links : LinkCache) (origin : Source) (limit n : Nat)
    (source : Source) : (∃ keys url, Finds store links n source keys url) ∨
      ∃ e, Misses store links origin limit n source e := by
  induction n generalizing source with
  | zero => exact .inr ⟨_, .endless⟩
  | succ n ih =>
    cases hget : links.get? source.key with
    | some url => exact .inl ⟨[], url, .known hget⟩
    | none =>
      rcases step_gives_or_refuses hstill source with ⟨found, h⟩ | ⟨e, h⟩
      · match found with
        | .inl url => exact .inl ⟨_, url, .video hget h⟩
        | .inr none => exact .inr ⟨_, .broken hget h⟩
        | .inr (some next) =>
          rcases ih next with ⟨keys, url, hrest⟩ | ⟨e, hrest⟩
          · exact .inl ⟨_, url, .next hget h hrest⟩
          · exact .inr ⟨e, .next hget h hrest⟩
      · exact .inr ⟨e, .unread hget h⟩

theorem follow_known (h : links.get? source.key = some url) :
    follow origin limit (n + 1) visited source ⟨store, links⟩ =
      .ok url ⟨store, links.insertAll visited url⟩ := by
  unfold follow
  rw [get_bind_eq]
  simp only [h]
  rfl

theorem follow_new {result : EStateM.Result TimelineError (Linked σ) String}
    (hnew : links.get? source.key = none)
    (h : (step source >>= fun found => match found with
        | .inl url => do
          remember (visited ++ [source.key]) url
          return url
        | .inr none => throw (.badState (.brokenChain source origin))
        | .inr (some next) => follow origin limit n (visited ++ [source.key]) next)
      ⟨store, links⟩ = result) :
    follow origin limit (n + 1) visited source ⟨store, links⟩ = result := by
  unfold follow
  rw [get_bind_eq]
  simp only [hnew]
  exact h

theorem follow_next {next : Source} (hnew : links.get? source.key = none)
    (h : Gives store (step source) (.inr (some next))) :
    follow origin limit (n + 1) visited source ⟨store, links⟩ =
      follow origin limit n (visited ++ [source.key]) next ⟨store, links⟩ :=
  follow_new hnew (bind_of_eq_ok (h links))

theorem follow_of_finds (h : Finds store links n source keys url) :
    follow origin limit n visited source ⟨store, links⟩ =
      .ok url ⟨store, links.insertAll (visited ++ keys) url⟩ := by
  induction h generalizing visited with
  | known h => rw [follow_known h, List.append_nil]
  | video hnew h => exact follow_new hnew (bind_of_eq_ok (h links))
  | next hnew h _ ih =>
    rw [follow_next hnew h, ih, List.append_assoc, List.singleton_append]

theorem follow_of_misses (h : Misses store links origin limit n source e) :
    follow origin limit n visited source ⟨store, links⟩ = .error e ⟨store, links⟩ := by
  induction h generalizing visited with
  | endless => rfl
  | unread hnew h => exact follow_new hnew (h.bind links)
  | broken hnew h => exact follow_new hnew (bind_of_eq_ok (h links))
  | next hnew h _ ih => rw [follow_next hnew h, ih]


theorem Finds.not_misses (h : Finds store links n source keys url) :
    ¬ Misses store links origin limit n source e := by
  intro h'
  have hfound : follow origin limit n [] source ⟨store, links⟩ = .ok url _ := follow_of_finds h
  rw [follow_of_misses h'] at hfound
  cases hfound

theorem Misses.unique {e' : TimelineError} (h : Misses store links origin limit n source e)
    (h' : Misses store links origin limit n source e') : e = e' := by
  have hmissed : follow origin limit n [] source ⟨store, links⟩ = .error e _ := follow_of_misses h
  rw [follow_of_misses h'] at hmissed
  cases hmissed
  rfl

/-- A chain is missed only for the limit. -/
theorem Misses.endless_of_chainTo {k : Nat} (h : Misses store links origin limit n source e)
    (hchain : ChainTo store k source url) :
    e = .badState (.endlessChain origin limit) ∧ n < k := by
  induction h generalizing k with
  | endless => exact ⟨rfl, hchain.pos⟩
  | unread _ h =>
    rcases hop_of_chainTo hchain with ⟨-, h'⟩ | ⟨m, next, -, h', -⟩
    · exact absurd h h'.not_refuses
    · exact absurd h h'.not_refuses
  | broken _ h =>
    rcases hop_of_chainTo hchain with ⟨-, h'⟩ | ⟨m, next, -, h', -⟩
    · cases h.unique h'
    · cases h.unique h'
  | next _ h _ ih =>
    rcases hop_of_chainTo hchain with ⟨-, h'⟩ | ⟨m, next, rfl, h', hrest⟩
    · cases h.unique h'
    · cases h.unique h'
      exact (ih hrest).imp id Nat.succ_lt_succ

theorem findLink_of_finds (h : Finds store links limit source keys url) :
    findLink limit source ⟨store, links⟩ = .ok url ⟨store, links.insertAll keys url⟩ :=
  follow_of_finds h

theorem findLink_of_misses (h : Misses store links source limit limit source e) :
    findLink limit source ⟨store, links⟩ = .error e ⟨store, links⟩ :=
  follow_of_misses h

theorem ends_findLink_of_walk (hstill : Still store) {Q : String → Linked σ → Prop}
    {E : TimelineError → Linked σ → Prop}
    (hfinds : ∀ keys url, Finds store links limit source keys url →
      Q url ⟨store, links.insertAll keys url⟩)
    (hmisses : ∀ e, Misses store links source limit limit source e → E e ⟨store, links⟩) :
    Ends (findLink limit source) ⟨store, links⟩ Q E := by
  rcases finds_or_misses hstill links source limit limit source with ⟨keys, url, h⟩ | ⟨e, h⟩
  · exact .intro_ok (findLink_of_finds h) (hfinds keys url h)
  · exact .intro_error (findLink_of_misses h) (hmisses e h)

end walks
end Timeline

end DriveLog
