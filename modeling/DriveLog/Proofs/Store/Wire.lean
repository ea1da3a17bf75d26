import DriveLog.Record.Basic
import Mathlib.Algebra.Group.Nat.Defs
import Mathlib.Data.List.Basic
/-!
Records as bytes. Numbers take as many bytes as they need, seven bits in each, texts and choices come after
a number, and fields stand one after the other. Each way to write carries the proof that what it has written
is read back, whatever bytes come after it.
-/
set_option autoImplicit false

namespace DriveLog

abbrev Bytes := List UInt8

structure Wire (α : Type) where
  write : α → Bytes
  read : Bytes → Option (α × Bytes)
  read_write : ∀ a rest, read (write a ++ rest) = some (a, rest)

namespace Wire
variable {α β γ : Type}

def through (w : Wire β) (parts : α → β) (whole : β → α) (h : ∀ a, whole (parts a) = a) : Wire α where
  write a := w.write (parts a)
  read bytes := (w.read bytes).map fun (b, rest) => (whole b, rest)
  read_write a rest := by simp [w.read_write, h]

def pair (v : Wire α) (w : Wire β) : Wire (α × β) where
  write a := v.write a.1 ++ w.write a.2
  read bytes := do
    let (a, rest) ← v.read bytes
    let (b, rest) ← w.read rest
    return ((a, b), rest)
  read_write a rest := by simp [v.read_write, w.read_write]

theorem toNat_byte {n : Nat} (h : n < 256) : (UInt8.ofNat n).toNat = n := UInt8.toNat_ofNat_of_lt' h

/-- The lowest seven bits come first; all bytes but the last one are 128 or more. -/
def writeNat (n : Nat) : Bytes :=
  if n < 128 then [.ofNat n] else .ofNat (n % 128 + 128) :: writeNat (n / 128)
termination_by n

def readNat : Bytes → Option (Nat × Bytes)
  | [] => none
  | b :: rest =>
    if b.toNat < 128 then some (b.toNat, rest)
    else (readNat rest).map fun (n, rest) => (b.toNat - 128 + 128 * n, rest)

theorem readNat_writeNat (n : Nat) (rest : Bytes) : readNat (writeNat n ++ rest) = some (n, rest) := by
  induction n using Nat.strongRecOn with
  | ind n ih =>
    rw [writeNat]
    split
    · rename_i hsmall
      rw [List.singleton_append, readNat, toNat_byte (by omega), if_pos hsmall]
    · have hvalue : n % 128 + 128 - 128 + 128 * (n / 128) = n := by omega
      rw [List.cons_append, readNat, toNat_byte (by omega), if_neg (by omega), ih (n / 128) (by omega)]
      exact congrArg (fun m => some (m, rest)) hvalue

def nat : Wire Nat := ⟨writeNat, readNat, readNat_writeNat⟩

def int : Wire Int :=
  nat.through (fun n => if 0 ≤ n then 2 * n.toNat else 2 * (-n - 1).toNat + 1)
    (fun n => if n % 2 = 0 then (n / 2 : Nat) else -((n / 2 : Nat) : Int) - 1) fun n => by
      split <;> split <;> omega

def choice [DecidableEq α] (all : List α) (h : ∀ a, a ∈ all) : Wire α where
  write a := nat.write (all.idxOf a)
  read bytes := do
    let (n, rest) ← nat.read bytes
    return (← all[n]?, rest)
  read_write a rest := by simp [nat.read_write, List.getElem?_idxOf (h a)]

def option (w : Wire α) : Wire (Option α) where
  write
    | none => [0]
    | some a => 1 :: w.write a
  read
    | 0 :: rest => some (none, rest)
    | 1 :: rest => (w.read rest).map fun (a, rest) => (some a, rest)
    | _ => none
  read_write a rest := by cases a <;> simp [w.read_write]

def readBytes (n : Nat) (bytes : Bytes) : Option (Bytes × Bytes) :=
  if n ≤ bytes.length then some (bytes.take n, bytes.drop n) else none

theorem readBytes_append (bytes rest : Bytes) :
    readBytes bytes.length (bytes ++ rest) = some (bytes, rest) := by
  simp [readBytes]

def utf8 (s : String) : Bytes := s.toByteArray.data.toList

theorem fromUTF8?_utf8 (s : String) : String.fromUTF8? ⟨(utf8 s).toArray⟩ = some s := by
  rw [utf8, Array.toArray_toList, String.fromUTF8?, dif_pos s.isValidUTF8]
  rfl

def text : Wire String where
  write s := nat.write (utf8 s).length ++ utf8 s
  read bytes := do
    let (n, rest) ← nat.read bytes
    let (chars, rest) ← readBytes n rest
    return (← String.fromUTF8? ⟨chars.toArray⟩, rest)
  read_write s rest := by
    simp [nat.read_write, readBytes_append, fromUTF8?_utf8]

def writeFixed : Nat → Nat → Bytes
  | 0, _ => []
  | k + 1, n => .ofNat (n % 256) :: writeFixed k (n / 256)

def readFixed : Nat → Bytes → Option (Nat × Bytes)
  | 0, bytes => some (0, bytes)
  | _ + 1, [] => none
  | k + 1, b :: rest => (readFixed k rest).map fun (n, rest) => (b.toNat + 256 * n, rest)

theorem readFixed_writeFixed {k n : Nat} (h : n < 256 ^ k) (rest : Bytes) :
    readFixed k (writeFixed k n ++ rest) = some (n, rest) := by
  induction k generalizing n with
  | zero =>
    obtain rfl : n = 0 := by omega
    rfl
  | succ k ih =>
    have hhigh : n / 256 < 256 ^ k := Nat.div_lt_of_lt_mul (by rwa [← Nat.pow_succ'])
    have hvalue : n % 256 + 256 * (n / 256) = n := by omega
    rw [writeFixed, List.cons_append, readFixed, ih hhigh, toNat_byte (by omega)]
    exact congrArg (fun m => some (m, rest)) hvalue

def binary64 : Wire Binary64 where
  write x := writeFixed 8 x.bits.toNat
  read bytes := (readFixed 8 bytes).map fun (n, rest) => (⟨.ofNat n⟩, rest)
  read_write x rest := by
    have hbits : x.bits.toNat < 256 ^ 8 := x.bits.toNat_lt
    simp [readFixed_writeFixed hbits]

def source : Wire Source :=
  ((choice SourceType.all fun t => by cases t <;> decide).pair text).through (fun r => (r.type, r.id))
    (fun (type, id) => ⟨type, id⟩) fun _ => rfl

def coordinate : Wire Coordinate :=
  (binary64.pair binary64).through (fun c => (c.lat, c.lon)) (fun (lat, lon) => ⟨lat, lon⟩) fun _ => rfl

def user : Wire User :=
  (text.pair (text.pair int)).through (fun r => (r.id, r.email, r.created))
    (fun (id, email, created) => ⟨id, email, created⟩) fun _ => rfl

def trip : Wire Trip :=
  (text.pair (text.pair (int.pair int))).through (fun r => (r.id, r.user, r.start, r.stop))
    (fun (id, user, start, stop) => ⟨id, user, start, stop⟩) fun _ => rfl

def event : Wire Event :=
  (text.pair (text.pair (text.pair (int.pair ((choice EventType.all fun t => by cases t <;> decide).pair
    (binary64.pair (binary64.pair source))))))).through
    (fun r => (r.id, r.user, r.trip, r.time, r.type, r.severity, r.value, r.source))
    (fun (id, user, trip, time, type, severity, value, source) =>
      ⟨id, user, trip, time, type, severity, value, source⟩) fun _ => rfl

def drivingCondition : Wire DrivingCondition :=
  (text.pair (text.pair (text.pair ((choice ConditionType.all fun t => by cases t <;> decide).pair (binary64.pair
    (int.pair (int.pair source))))))).through
    (fun r => (r.id, r.user, r.trip, r.type, r.severity, r.start, r.stop, r.source))
    (fun (id, user, trip, type, severity, start, stop, source) =>
      ⟨id, user, trip, type, severity, start, stop, source⟩) fun _ => rfl

def rawVideo : Wire RawVideo :=
  (text.pair (text.pair (int.pair (int.pair text)))).through
    (fun r => (r.id, r.user, r.created, r.duration, r.file))
    (fun (id, user, created, duration, file) => ⟨id, user, created, duration, file⟩) fun _ => rfl

def rawMotion : Wire RawMotion :=
  (text.pair (text.pair (int.pair (binary64.pair (binary64.pair source.option))))).through
    (fun r => (r.id, r.user, r.time, r.velocity, r.acceleration, r.source))
    (fun (id, user, time, velocity, acceleration, source) =>
      ⟨id, user, time, velocity, acceleration, source⟩) fun _ => rfl

def rawLocation : Wire RawLocation :=
  (text.pair (text.pair (int.pair (coordinate.pair source.option)))).through
    (fun r => (r.id, r.user, r.time, r.coordinate, r.source))
    (fun (id, user, time, coordinate, source) => ⟨id, user, time, coordinate, source⟩) fun _ => rfl

def record : Wire Record where
  write
    | .user r => nat.write 0 ++ user.write r
    | .trip r => nat.write 1 ++ trip.write r
    | .event r => nat.write 2 ++ event.write r
    | .drivingCondition r => nat.write 3 ++ drivingCondition.write r
    | .rawVideo r => nat.write 4 ++ rawVideo.write r
    | .rawMotion r => nat.write 5 ++ rawMotion.write r
    | .rawLocation r => nat.write 6 ++ rawLocation.write r
  read bytes := do
    let (kind, rest) ← nat.read bytes
    match kind with
    | 0 => (user.read rest).map fun (r, rest) => (.user r, rest)
    | 1 => (trip.read rest).map fun (r, rest) => (.trip r, rest)
    | 2 => (event.read rest).map fun (r, rest) => (.event r, rest)
    | 3 => (drivingCondition.read rest).map fun (r, rest) => (.drivingCondition r, rest)
    | 4 => (rawVideo.read rest).map fun (r, rest) => (.rawVideo r, rest)
    | 5 => (rawMotion.read rest).map fun (r, rest) => (.rawMotion r, rest)
    | 6 => (rawLocation.read rest).map fun (r, rest) => (.rawLocation r, rest)
    | _ => none
  read_write r rest := by cases r <;> simp [read_write]

end Wire
end DriveLog
