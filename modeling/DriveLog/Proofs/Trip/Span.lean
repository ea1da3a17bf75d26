import Mathlib.Logic.Relation
import Mathlib.Order.Defs.LinearOrder
/-!
Stretches of time of one user. Main statement: two of them are linked by stretches of a list, each
touching the next, exactly if every moment between their outer ends is followed by the next one
inside some stretch of the list.
-/
set_option autoImplicit false

namespace DriveLog

/-- Both ends are included. -/
structure Span where
  user : String
  start : Int
  stop : Int
  deriving DecidableEq, Repr

namespace Span

def Touches (a b : Span) : Prop := a.user = b.user ∧ a.start ≤ b.stop ∧ b.start ≤ a.stop

instance (a b : Span) : Decidable (a.Touches b) := inferInstanceAs (Decidable (_ ∧ _))

def Within (a b : Span) : Prop := a.user = b.user ∧ b.start ≤ a.start ∧ a.stop ≤ b.stop

instance (a b : Span) : Decidable (a.Within b) := inferInstanceAs (Decidable (_ ∧ _))

/-- Both `time` and the moment after it are in the stretch. -/
def Crosses (s : Span) (user : String) (time : Int) : Prop :=
  s.user = user ∧ s.start ≤ time ∧ time < s.stop

def CrossedBy (l : List Span) (user : String) (time : Int) : Prop := ∃ s ∈ l, s.Crosses user time

/-- No moment between the outer ends of two stretches is left without a stretch of the list. -/
def Joined (l : List Span) (a b : Span) : Prop :=
  a.user = b.user ∧
    ∀ time, min a.start b.start ≤ time → time < max a.stop b.stop → CrossedBy l a.user time

def Covered (l m : List Span) : Prop := ∀ s ∈ l, ∃ s' ∈ m, s.Within s'

/-- A stretch is filled by stretches of a list, and its ends are ends of theirs. -/
structure MadeOf (l : List Span) (a : Span) : Prop where
  filled : Joined l a a
  started : ∃ s ∈ l, s.user = a.user ∧ s.start = a.start
  stopped : ∃ s ∈ l, s.user = a.user ∧ s.stop = a.stop

theorem Touches.symm {a b : Span} (h : a.Touches b) : b.Touches a := ⟨h.1.symm, h.2.2, h.2.1⟩

theorem touches_self {a : Span} (h : a.start ≤ a.stop) : a.Touches a := ⟨rfl, h, h⟩

theorem Within.refl (a : Span) : a.Within a := ⟨rfl, Int.le_refl _, Int.le_refl _⟩

theorem Touches.of_within {a b c : Span} (h : a.Touches b) (hbc : b.Within c) : a.Touches c := by
  obtain ⟨hu, hab, hba⟩ := h
  obtain ⟨hu', hcb, hbc⟩ := hbc
  exact ⟨hu.trans hu', by omega, by omega⟩

section joined
variable {l m : List Span} {a b c : Span}

theorem Covered.of_subset (h : ∀ s ∈ l, s ∈ m) : Covered l m := fun s hs =>
  ⟨s, h s hs, .refl s⟩

theorem CrossedBy.mono {user : String} {time : Int} (h : CrossedBy l user time)
    (hlm : Covered l m) : CrossedBy m user time := by
  obtain ⟨s, hs, hu, hlo, hhi⟩ := h
  obtain ⟨s', hs', hu', hstart, hstop⟩ := hlm s hs
  exact ⟨s', hs', hu'.symm.trans hu, by omega, by omega⟩

theorem Joined.mono (h : Joined l a b) (hlm : Covered l m) : Joined m a b :=
  ⟨h.1, fun time hlo hhi => (h.2 time hlo hhi).mono hlm⟩

theorem Joined.symm (h : Joined l a b) : Joined l b a :=
  ⟨h.1.symm, fun time hlo hhi => h.1 ▸ h.2 time (by omega) (by omega)⟩

theorem Joined.trans (hab : Joined l a b) (hbc : Joined l b c) (hb : b.start ≤ b.stop) :
    Joined l a c := by
  refine ⟨hab.1.trans hbc.1, fun time hlo hhi => ?_⟩
  by_cases h : min a.start b.start ≤ time ∧ time < max a.stop b.stop
  · exact hab.2 time h.1 h.2
  · rw [hab.1]
    exact hbc.2 time (by omega) (by omega)

theorem joined_self_of_mem (h : a ∈ l) : Joined l a a :=
  ⟨rfl, fun _ hlo hhi => ⟨a, h, rfl, by omega, by omega⟩⟩

theorem Touches.joined (h : a.Touches b) (ha : Joined l a a) (hb : Joined l b b) :
    Joined l a b := by
  obtain ⟨hu, hab, hba⟩ := h
  refine ⟨hu, fun time hlo hhi => ?_⟩
  by_cases hin : a.start ≤ time ∧ time < a.stop
  · exact ha.2 time (by omega) (by omega)
  · rw [hu]
    exact hb.2 time (by omega) (by omega)

theorem Joined.of_within (h : Joined l b b) (hab : a.Within b) : Joined l a b := by
  refine ⟨hab.1, fun time hlo hhi => ?_⟩
  obtain ⟨hu, hlo', hhi'⟩ := hab
  rw [hu]
  exact h.2 time (by omega) (by omega)

theorem madeOf_self (h : a ∈ l) : MadeOf l a :=
  ⟨joined_self_of_mem h, ⟨a, h, rfl, rfl⟩, ⟨a, h, rfl, rfl⟩⟩

theorem MadeOf.mono (h : MadeOf l a) (hlm : ∀ s ∈ l, s ∈ m) : MadeOf m a := by
  obtain ⟨s, hs, hstart⟩ := h.started
  obtain ⟨s', hs', hstop⟩ := h.stopped
  exact ⟨h.filled.mono (.of_subset hlm), ⟨s, hlm s hs, hstart⟩, ⟨s', hlm s' hs', hstop⟩⟩

end joined

/-! Things with a span, and the components that they form. -/

variable {ι : Type} (span : ι → Span) (l : List ι)

/-- A way from one thing to another over things of the list, each touching the next. -/
def Linked : ι → ι → Prop :=
  Relation.ReflTransGen fun a b => b ∈ l ∧ (span a).Touches (span b)

variable {span l} {a b : ι}

theorem joined_of_linked (hl : ∀ x ∈ l, (span x).start ≤ (span x).stop) (ha : a ∈ l)
    (h : Linked span l a b) : b ∈ l ∧ Joined (l.map span) (span a) (span b) := by
  have self : ∀ x ∈ l, Joined (l.map span) (span x) (span x) := fun x hx =>
    joined_self_of_mem (List.mem_map_of_mem hx)
  induction h with
  | refl => exact ⟨ha, self a ha⟩
  | tail _ hstep ih =>
    obtain ⟨hc, htouch⟩ := hstep
    exact ⟨hc, ih.2.trans (htouch.joined (self _ ih.1) (self _ hc)) (hl _ ih.1)⟩

/-- From the end of `a` on, a stretch over the next moment comes nearer to `b`. -/
theorem linked_of_crossed (hl : ∀ x ∈ l, (span x).start ≤ (span x).stop) (hb : b ∈ l)
    (n : Nat) : ∀ a ∈ l, (span a).user = (span b).user → (span a).start ≤ (span b).stop →
      (span b).start - (span a).stop ≤ n →
      (∀ time, (span a).stop ≤ time → time < (span b).start →
        CrossedBy (l.map span) (span a).user time) → Linked span l a b := by
  induction n with
  | zero =>
    intro a _ hu hle hn _
    exact .single ⟨hb, hu, hle, by omega⟩
  | succ n ih =>
    intro a ha hu hle hn hcross
    by_cases hnear : (span b).start ≤ (span a).stop
    · exact .single ⟨hb, hu, hle, hnear⟩
    · have hstop := hcross (span a).stop (Int.le_refl _) (by omega)
      obtain ⟨_, hmem, hcu, hlo, hhi⟩ := hstop
      obtain ⟨c, hc, rfl⟩ := List.mem_map.mp hmem
      have hac : (span a).Touches (span c) := ⟨hcu.symm, by have := hl a ha; omega, hlo⟩
      refine .head ⟨hc, hac⟩ (ih c hc (hcu.trans hu) ?_ (by omega) fun time h₁ h₂ => ?_)
      · have := hl b hb
        omega
      · rw [hcu]
        exact hcross time (by omega) h₂

theorem Linked.symm (ha : a ∈ l) (h : Linked span l a b) : Linked span l b a := by
  have both : b ∈ l ∧ Linked span l b a := by
    induction h with
    | refl => exact ⟨ha, .refl⟩
    | tail _ hstep ih => exact ⟨hstep.1, .head ⟨ih.1, hstep.2.symm⟩ ih.2⟩
  exact both.2

theorem linked_iff_joined (hl : ∀ x ∈ l, (span x).start ≤ (span x).stop) (ha : a ∈ l)
    (hb : b ∈ l) : Linked span l a b ↔ Joined (l.map span) (span a) (span b) := by
  refine ⟨fun h => (joined_of_linked hl ha h).2, fun h => ?_⟩
  have hspan := hl a ha
  have hspan' := hl b hb
  rcases Int.le_total (span a).start (span b).stop with hle | hle
  · refine linked_of_crossed hl hb ((span b).start - (span a).stop).toNat a ha h.1 hle
      (by omega) fun time h₁ h₂ => h.2 time (by omega) (by omega)
  · refine .symm hb (linked_of_crossed hl ha ((span a).start - (span b).stop).toNat b hb h.1.symm
      (by omega) (by omega) fun time h₁ h₂ => ?_)
    exact h.1 ▸ h.2 time (by omega) (by omega)

end Span

end DriveLog
