import ComponentLang.Token.Kind

namespace ComponentLang

structure Scope where
  name : String
  kind : TokenKind
  deriving DecidableEq, Repr

namespace Scope

def global : Scope where
  name := "<global>"
  kind := .nil

end Scope

structure ScopeStack where
  /-- The open scopes above the global one, innermost first. -/
  inner : List Scope := []
  peak : Nat := 1
  deriving DecidableEq, Repr

namespace ScopeStack

/-- The number of open scopes, the global one among them. -/
def depth (scopes : ScopeStack) : Nat :=
  scopes.inner.length + 1

def current (scopes : ScopeStack) : Scope :=
  scopes.inner.headD .global

def push (scopes : ScopeStack) (scope : Scope) : ScopeStack where
  inner := scope :: scopes.inner
  peak := max scopes.peak (scopes.depth + 1)

/-- The innermost scope and the stack without it; the global scope stays. -/
def pop (scopes : ScopeStack) : Option Scope × ScopeStack :=
  match scopes.inner with
  | [] => (none, scopes)
  | scope :: rest => (some scope, { scopes with inner := rest })

def reset (scopes : ScopeStack) : ScopeStack :=
  { scopes with inner := [] }

def path (scopes : ScopeStack) : String :=
  match scopes.inner with
  | [] => Scope.global.name
  | inner => ".".intercalate (inner.reverse.map (·.name))

@[simp] theorem inner_push (scopes : ScopeStack) (scope : Scope) :
    (scopes.push scope).inner = scope :: scopes.inner := rfl

@[simp] theorem inner_pop_push (scopes : ScopeStack) (scope : Scope) :
    (scopes.push scope).pop.2.inner = scopes.inner := rfl

@[simp] theorem peak_pop (scopes : ScopeStack) :
    scopes.pop.2.peak = scopes.peak := by
  unfold pop
  split <;> rfl

@[simp] theorem depth_reset (scopes : ScopeStack) : scopes.reset.depth = 1 := rfl

end ScopeStack

end ComponentLang
