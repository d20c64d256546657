namespace ComponentLang

structure Modifiers where
  declaration : Bool := false
  readonly : Bool := false
  abstract : Bool := false
  async : Bool := false
  deriving DecidableEq, Repr

namespace Modifiers

/-- The legend's names of the flags, in bit order. -/
def legend : List String :=
  ["declaration", "readonly", "abstract", "async"]

def bits (modifiers : Modifiers) : Nat :=
  modifiers.declaration.toNat + 2 * modifiers.readonly.toNat +
    4 * modifiers.abstract.toNat + 8 * modifiers.async.toNat

def ofBits (bits : Nat) : Modifiers where
  declaration := bits.testBit 0
  readonly := bits.testBit 1
  abstract := bits.testBit 2
  async := bits.testBit 3

def withDeclaration (modifiers : Modifiers) : Modifiers :=
  { modifiers with declaration := true }

def withoutDeclaration (modifiers : Modifiers) : Modifiers :=
  { modifiers with declaration := false }

def names (modifiers : Modifiers) : List String :=
  [(modifiers.declaration, "DECLARATION"), (modifiers.readonly, "READONLY"),
    (modifiers.abstract, "ABSTRACT"), (modifiers.async, "ASYNC")].filterMap
    fun (isSet, name) => if isSet then some name else none

def listing (modifiers : Modifiers) : String :=
  " | ".intercalate modifiers.names

@[simp] theorem withoutDeclaration_withDeclaration (modifiers : Modifiers) :
    modifiers.withDeclaration.withoutDeclaration =
      modifiers.withoutDeclaration := rfl

@[simp] theorem ofBits_bits (modifiers : Modifiers) :
    ofBits modifiers.bits = modifiers := by
  obtain ⟨declaration, readonly, abstract, async⟩ := modifiers
  cases declaration <;> cases readonly <;> cases abstract <;> cases async <;>
    decide

end Modifiers

end ComponentLang
