import DriveLog.Proofs.Timeline.Walk
set_option autoImplicit false

namespace DriveLog

def LinkCache.Grows (links known : LinkCache) : Prop :=
  ∀ key url, links.get? key = some url → known.get? key = some url

theorem LinkCache.Grows.refl (links : LinkCache) : links.Grows links := fun _ _ h => h

theorem LinkCache.Grows.trans {links known later : LinkCache} (h : links.Grows known)
    (h' : known.Grows later) : links.Grows later := fun key url hget => h' key url (h key url hget)

namespace Timeline
variable {σ : Type} [RecordStore σ] {store : σ} {links known : LinkCache}

section walks
variable {origin source : Source} {limit n : Nat} {keys : List String} {url : String}
  {e : TimelineError}

theorem Finds.new (h : Finds store links n source keys url) : ∀ key ∈ keys, links.get? key = none := by
  induction h with
  | known _ => simp
  | video hnew _ => simpa using hnew
  | next hnew _ _ ih => simpa using ⟨hnew, ih⟩

theorem Finds.grows (h : Finds store links n source keys url) :
    links.Grows (links.insertAll keys url) := by
  intro key url' hget
  rw [LinkCache.get?_insertAll, if_neg, hget]
  intro hmem
  rw [h.new key hmem] at hget
  cases hget

theorem Finds.mem_or_known (h : Finds store links n source keys url) :
    source.key ∈ keys ∨ links.get? source.key = some url := by
  cases h with
  | known h => exact .inr h
  | video _ _ => simp
  | next _ _ _ => simp

theorem Finds.get?_self (h : Finds store links n source keys url) :
    (links.insertAll keys url).get? source.key = some url := by
  rw [LinkCache.get?_insertAll]
  split
  · rfl
  · exact h.mem_or_known.resolve_left ‹_›

theorem Misses.of_grows (hgrows : links.Grows known) (h : Misses store known origin limit n source e) :
    Misses store links origin limit n source e := by
  have hnone : ∀ key, known.get? key = none → links.get? key = none := by
    intro key hnone
    cases hget : links.get? key with
    | none => rfl
    | some url => rw [hgrows key url hget] at hnone; cases hnone
  induction h with
  | endless => exact .endless
  | unread hnew h => exact .unread (hnone _ hnew) h
  | broken hnew h => exact .broken (hnone _ hnew) h
  | next hnew h _ ih => exact .next (hnone _ hnew) h ih

end walks

/-- Each known link is that of the chain of a source, and the rest of the chain is known. -/
structure Sound (store : σ) (links : LinkCache) : Prop where
  leadsTo : ∀ key url, links.get? key = some url →
    ∃ source : Source, source.key = key ∧ LeadsTo store source url
  closed : ∀ source next : Source, Gives store (step source) (.inr (some next)) →
    (links.get? source.key).isSome → (links.get? next.key).isSome

theorem sound_nil (store : σ) : Sound store [] := by
  constructor
  · intro key url hget
    cases hget
  · intro source next _ hknown
    cases hknown

theorem Sound.of_get? {source : Source} {url : String} (h : Sound store links)
    (hget : links.get? source.key = some url) : LeadsTo store source url := by
  obtain ⟨other, hkey, hleads⟩ := h.leadsTo _ _ hget
  rwa [← Source.key_injective hkey]

section walks
variable {source next : Source} {n : Nat} {keys : List String} {url : String}

theorem Finds.leadsTo (hsound : Sound store links) (h : Finds store links n source keys url) :
    LeadsTo store source url := by
  induction h with
  | known h => exact hsound.of_get? h
  | video _ h => exact leadsTo_of_video h
  | next _ h _ ih => exact leadsTo_of_next h ih

theorem ends_findLink_still (hstill : Still store) (hsound : Sound store links) (limit : Nat)
    (source : Source) :
    Ends (findLink limit source) ⟨store, links⟩ (fun url _ => LeadsTo store source url)
      (fun _ t => t = ⟨store, links⟩) :=
  ends_findLink_of_walk hstill (fun _ _ hfinds => hfinds.leadsTo hsound) fun _ _ => rfl

theorem Finds.leadsTo_of_mem (hsound : Sound store links)
    (h : Finds store links n source keys url) :
    ∀ key ∈ keys, ∃ other : Source, other.key = key ∧ LeadsTo store other url := by
  induction h with
  | known _ => simp
  | video hnew h =>
    intro key hmem
    exact ⟨_, (List.mem_singleton.mp hmem).symm, leadsTo_of_video h⟩
  | next hnew h hrest ih =>
    intro key hmem
    rcases List.mem_cons.mp hmem with rfl | hmem
    · exact ⟨_, rfl, leadsTo_of_next h (hrest.leadsTo hsound)⟩
    · exact ih key hmem

/-- After the record of a source, a walk reads that of the next one or knows its link. -/
theorem Finds.next_mem_or_known (h : Finds store links n source keys url) {other next : Source}
    (hmem : other.key ∈ keys) (hnext : Gives store (step other) (.inr (some next))) :
    next.key ∈ keys ∨ (links.get? next.key).isSome := by
  induction h with
  | known _ => simp at hmem
  | video _ h =>
    rw [Source.key_injective (List.mem_singleton.mp hmem)] at hnext
    cases h.unique hnext
  | next _ h hrest ih =>
    rcases List.mem_cons.mp hmem with hkey | hmem
    · rw [Source.key_injective hkey] at hnext
      cases h.unique hnext
      exact hrest.mem_or_known.imp (List.mem_cons_of_mem _) fun hget => by simp [hget]
    · exact (ih hmem).imp_left (List.mem_cons_of_mem _)

theorem Sound.insertAll (hsound : Sound store links) (h : Finds store links n source keys url) :
    Sound store (links.insertAll keys url) := by
  constructor
  case leadsTo =>
    intro key url' hget
    rw [LinkCache.get?_insertAll] at hget
    split at hget
    · obtain rfl := Option.some.inj hget
      exact h.leadsTo_of_mem hsound key ‹_›
    · exact hsound.leadsTo key url' hget
  case closed =>
    intro other next hnext hknown
    rw [LinkCache.get?_insertAll] at hknown ⊢
    split
    · rfl
    · rename_i hnot
      split at hknown
      · exact (h.next_mem_or_known ‹_› hnext).resolve_left hnot
      · exact hsound.closed other next hnext hknown

theorem Sound.isSome_of_mem (hsound : Sound store known) (h : Finds store links n source keys url)
    (hknown : (known.get? source.key).isSome) : ∀ key ∈ keys, (known.get? key).isSome := by
  induction h with
  | known _ => simp
  | video _ _ => simpa using hknown
  | next _ h _ ih => simpa using ⟨hknown, ih (hsound.closed _ _ h hknown)⟩

theorem Sound.get?_of_isSome (h : Sound store links) (hleads : LeadsTo store source url)
    (hknown : (links.get? source.key).isSome) : links.get? source.key = some url := by
  obtain ⟨url', hget⟩ := Option.isSome_iff_exists.mp hknown
  rw [hget, (h.of_get? hget).unique hleads]

/-- A walk that is long enough finds the end of a chain. -/
theorem Sound.exists_finds (hstill : Still store) (hsound : Sound store links) {m : Nat}
    (h : ChainTo store n source url) (hle : n ≤ m) : ∃ keys, Finds store links m source keys url := by
  rcases finds_or_misses hstill links source m m source with ⟨keys, url', hfinds⟩ | ⟨e, hmisses⟩
  · rw [LeadsTo.unique ⟨n, h⟩ (hfinds.leadsTo hsound)]
    exact ⟨keys, hfinds⟩
  · have hlt := (hmisses.endless_of_chainTo h).2
    omega

end walks
end Timeline
end DriveLog
