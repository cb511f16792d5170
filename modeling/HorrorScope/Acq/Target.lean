import Mathlib.Data.Vector.Basic
import HorrorScope.Base.Service

/-!
# The target

The sketch `sketch_slowAes.ino` as seen over its serial port. The block encryption is an arbitrary
function; the key schedule in front of each command has no effect on the port and is left out.
-/

namespace HorrorScope.Acq

open HorrorScope.Base

/-- 16 bytes. -/
abbrev Block := List.Vector UInt8 16

/-- What the sketch does up to its next command. -/
abbrev Sketch := Proc UInt8 UInt8 Empty fun _ ↦ Unit

/-- `blocking_read`. -/
def blockingRead : Sketch UInt8 := Proc.input

/-- `Serial.write`. -/
def serialWrite : List UInt8 → Sketch Unit
  | [] => pure ()
  | b :: data => do
    Proc.output b
    serialWrite data

/-- `for(int i=0;i<n;i++){ data[i] = blocking_read(); }`. -/
def readData : (n : Nat) → Sketch (List.Vector UInt8 n)
  | 0 => pure .nil
  | n + 1 => do
    let b ← blockingRead
    let data ← readData n
    return .cons b data

/-- The bytes of a string literal. -/
def ascii (s : List Char) : List UInt8 := s.map Char.toUInt8

/-- `"T\r\n"`. -/
def reply : List UInt8 := ascii ['T', '\r', '\n']

/-- `"Incorrect Command!\r\n"`. -/
def incorrectCommand : List UInt8 :=
  ascii ['I', 'n', 'c', 'o', 'r', 'r', 'e', 'c', 't', ' ', 'C', 'o', 'm', 'm', 'a', 'n', 'd', '!',
    '\r', '\n']

/-- `"this is the arduino TOE"`. -/
def greeting : List UInt8 :=
  ascii ['t', 'h', 'i', 's', ' ', 'i', 's', ' ', 't', 'h', 'e', ' ', 'a', 'r', 'd', 'u', 'i', 'n',
    'o', ' ', 'T', 'O', 'E']

/-- `setup` (`sketch_slowAes.ino:18-31`), as far as the port sees it. -/
def setup : Sketch Unit := serialWrite greeting

variable (cipher : Block → Block)

/-- `loop` behind the read of the command (`sketch_slowAes.ino:40-64`). -/
def loop (command : UInt8) : Sketch Unit :=
  if command = 'a'.toUInt8 then do
    let data ← readData 16
    let _ ← blockingRead
    serialWrite (cipher data).toList
  else if command = 't'.toUInt8 then
    serialWrite reply
  else
    serialWrite incorrectCommand

/-- The sketch as a service. -/
def target : Service UInt8 UInt8 Empty (fun _ ↦ Unit) Unit Unit :=
  ⟨fun _ command ↦ loop cipher command, fun c ↦ nomatch c⟩

/-! ### What it answers -/

/-- The sketch with a block read, waiting for the byte behind it. -/
def atNewline (data : Block) : Sketch Unit :=
  .recv fun _ ↦ serialWrite (cipher data).toList

private theorem settle_serialWrite (data : List UInt8) (h : Unit) (u : List (Option UInt8)) :
    (target cipher).settle (serialWrite data) h u = ⟨.ret (), h, u ++ data.map some⟩ := by
  induction data generalizing u with
  | nil => rw [List.map_nil, List.append_nil]; rfl
  | cons b data ih =>
    refine (ih (u ++ [some b])).trans ?_
    rw [List.append_assoc]
    rfl

private theorem waits_readData {n : Nat} {k : List.Vector UInt8 n → Sketch Unit}
    (hk : ∀ data, Service.Waits (k data)) : Service.Waits (readData n >>= k) := by
  cases n with
  | zero => exact hk _
  | succ n => trivial

private theorem feed_readData {n : Nat} (data : List.Vector UInt8 n)
    {k : List.Vector UInt8 n → Sketch Unit} (hk : ∀ data, Service.Waits (k data)) (h : Unit)
    (u : List (Option UInt8)) :
    (target cipher).feed ⟨readData n >>= k, h, u⟩ data.toList =
      ⟨k data, h, u ++ List.replicate n none⟩ := by
  induction n generalizing u with
  | zero =>
    rw [List.Vector.eq_nil data]
    simp [readData]
  | succ n ih =>
    obtain ⟨b, rest, rfl⟩ := data.exists_eq_cons
    have hk' : ∀ data, Service.Waits (k (.cons b data)) := fun data ↦ hk _
    rw [List.Vector.toList_cons, Service.feed_cons]
    change (target cipher).feed ((target cipher).settle
      (readData n >>= (fun data ↦ pure (.cons b data)) >>= k) h (u ++ [none])) rest.toList = _
    rw [Proc.bind_assoc]
    change (target cipher).feed ((target cipher).settle
      (readData n >>= fun data ↦ k (.cons b data)) h (u ++ [none])) rest.toList = _
    rw [Service.settle_of_waits _ (waits_readData hk'), ih rest hk', List.append_assoc,
      List.singleton_append, ← List.replicate_succ]

/-- A block is only taken in. -/
theorem feed_encrypt (data : Block) :
    (target cipher).feed ⟨.ret (), (), []⟩ ('a'.toUInt8 :: data.toList) =
      ⟨atNewline cipher data, (), List.replicate 17 none⟩ := by
  have hk : ∀ data : Block, Service.Waits (atNewline cipher data) := fun _ ↦ trivial
  rw [Service.feed_cons]
  change (target cipher).feed ((target cipher).settle
    (readData 16 >>= atNewline cipher) () [none]) data.toList = _
  rw [Service.settle_of_waits _ (waits_readData hk), feed_readData cipher data hk]
  rfl

/-- The byte behind it, whatever it is, is answered by the encrypted block. -/
theorem feed_newline (data : Block) (b : UInt8) (u : List (Option UInt8)) :
    (target cipher).feed ⟨atNewline cipher data, (), u⟩ [b] =
      ⟨.ret (), (), u ++ [none] ++ (cipher data).toList.map some⟩ :=
  settle_serialWrite cipher _ _ _

end HorrorScope.Acq
