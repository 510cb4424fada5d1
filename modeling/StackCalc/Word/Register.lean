import StackCalc.Word.Count
import StackCalc.Word.Window

/-!
# A register

A register holds one word. An instruction that produces a word stores it in the register; one that
only measures the word, or is refused, leaves the register as it is.
-/

namespace StackCalc.Word

/-- The operations that make a new word of the register's word by its lowest bits. -/
inductive Primitive where
  | isolateLowestClear
  | isolateLowestSet
  | fillFromLowestClear
  | fillFromLowestSet
  | clearLowestSet
  | setLowestClear
  deriving DecidableEq, Repr

/-- The numbers that describe a word. -/
inductive Measure where
  | width
  | popCount
  | leadingZeros
  | trailingZeros
  deriving DecidableEq, Repr

/-- What a register can be told to do. -/
inductive Instruction where
  | mask (window : Window)
  | setWindow (window : Window)
  | clearWindow (window : Window)
  | primitive (p : Primitive)
  | measure (m : Measure)
  deriving DecidableEq, Repr

/-- What an instruction answers. -/
inductive Result (w : Nat) where
  | word (v : BitVec w)
  | count (n : Nat)
  | refused (fault : WindowFault)
  deriving DecidableEq, Repr

variable {w : Nat}

def Primitive.apply (v : BitVec w) : Primitive → BitVec w
  | isolateLowestClear => Word.isolateLowestClear v
  | isolateLowestSet => Word.isolateLowestSet v
  | fillFromLowestClear => Word.fillFromLowestClear v
  | fillFromLowestSet => Word.fillFromLowestSet v
  | clearLowestSet => Word.clearLowestSet v
  | setLowestClear => Word.setLowestClear v

def Measure.apply (v : BitVec w) : Measure → Nat
  | width => w
  | popCount => Word.popCount v
  | leadingZeros => Word.leadingZeros v
  | trailingZeros => Word.trailingZeros v

/-- A word, or the reason for not having it. -/
def Result.ofExcept : Except WindowFault (BitVec w) → Result w
  | .ok v => .word v
  | .error fault => .refused fault

/-- Carries out one instruction on the register's word. -/
def Instruction.execute (v : BitVec w) : Instruction → Result w
  | mask window => .ofExcept (Word.mask w window)
  | setWindow window => .ofExcept (Word.setWindow v window)
  | clearWindow window => .ofExcept (Word.clearWindow v window)
  | primitive p => .word (p.apply v)
  | measure m => .count (m.apply v)

/-- The register's word after an instruction, where it was `v` before. -/
def Result.store (v : BitVec w) : Result w → BitVec w
  | word v' => v'
  | count _ => v
  | refused _ => v

/-- The results of instructions carried out one after the other. -/
def results (v : BitVec w) : List Instruction → List (Result w)
  | [] => []
  | i :: rest => i.execute v :: results ((i.execute v).store v) rest

/-- The register's word after instructions carried out one after the other. -/
def register (v : BitVec w) (is : List Instruction) : BitVec w :=
  is.foldl (fun v i => (i.execute v).store v) v

end StackCalc.Word
