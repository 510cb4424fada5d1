/-!
# Windows

A window is a run of adjacent bits of a word, given by how many bits it has and how many bits are
below it. A word has a window only if the window ends inside the word; an operation on a window that
does not is refused. `mask` is the word that is set in the window and clear elsewhere.
-/

namespace StackCalc.Word

/-- A run of adjacent bits. -/
structure Window where
  /-- How many bits the run has. -/
  bits : Nat
  /-- How many bits are below it. -/
  shift : Nat
  deriving DecidableEq, Repr

/-- A window that is not part of a word. -/
structure WindowFault where
  window : Window
  width : Nat
  deriving DecidableEq, Repr

namespace Window

/-- Whether a word of `w` bits has the window. -/
def Fits (window : Window) (w : Nat) : Prop := window.bits + window.shift ≤ w

instance (window : Window) (w : Nat) : Decidable (window.Fits w) :=
  inferInstanceAs (Decidable (_ ≤ _))

/-- Whether the bit numbered `i` is in the window. -/
def Covers (window : Window) (i : Nat) : Prop :=
  window.shift ≤ i ∧ i < window.shift + window.bits

instance (window : Window) (i : Nat) : Decidable (window.Covers i) :=
  inferInstanceAs (Decidable (_ ∧ _))

end Window

/-- The fault in words. -/
def WindowFault.message (f : WindowFault) : String :=
  "mask of " ++ Nat.repr f.window.bits ++ " bits shifted by " ++ Nat.repr f.window.shift ++
    " does not fit in " ++ Nat.repr f.width ++ " bits"

/-- The word of `w` bits that is set exactly in the window. All ones are moved down until as many
    are left as the window has, and then up to the window's place; an empty window has its own case
    because it would have to move them down by the whole width. -/
def mask (w : Nat) (window : Window) : Except WindowFault (BitVec w) :=
  if window.Fits w then
    if window.bits = 0 then .ok 0
    else .ok ((BitVec.allOnes w >>> (w - window.bits)) <<< window.shift)
  else .error ⟨window, w⟩

variable {w : Nat}

/-- Sets the bits of the window. -/
def setWindow (v : BitVec w) (window : Window) : Except WindowFault (BitVec w) :=
  (mask w window).map fun m => v ||| m

/-- Clears the bits of the window. -/
def clearWindow (v : BitVec w) (window : Window) : Except WindowFault (BitVec w) :=
  (mask w window).map fun m => v &&& ~~~m

theorem mask_eq_error_iff {window : Window} {fault : WindowFault} :
    mask w window = .error fault ↔ fault = ⟨window, w⟩ ∧ ¬window.Fits w := by
  unfold mask
  split
  next hfits => split <;> simp [hfits]
  next hfits => simp [hfits, eq_comm]

end StackCalc.Word
