import ComponentLang.Proofs.Walk.Steps

namespace ComponentLang

namespace Walk

structure Balanced (before after : Walk) : Prop where
  inner : after.scopes.inner = before.scopes.inner
  resets : after.resets = before.resets

theorem Balanced.refl (walk : Walk) : Balanced walk walk :=
  ⟨rfl, rfl⟩

theorem Balanced.trans {first second third : Walk}
    (front : Balanced first second) (back : Balanced second third) :
    Balanced first third :=
  ⟨back.inner.trans front.inner, back.resets.trans front.resets⟩

theorem Balanced.closeScope {before after : Walk} {name : String}
    {kind : TokenKind} (body : Balanced (before.openScope name kind) after) :
    Balanced before after.closeScope := by
  have opened : after.scopes.inner = ⟨name, kind⟩ :: before.scopes.inner :=
    body.inner
  refine ⟨?_, body.resets⟩
  simp only [Walk.closeScope, ScopeStack.pop, opened]

theorem keptBySteps_balanced : KeptBySteps (fun _ => True) Balanced where
  refl := .refl _
  trans := .trans
  report _ := ⟨rfl, rfl⟩
  ended _ := ⟨rfl, rfl⟩
  next _ := ⟨rfl, rfl⟩
  rescue _ := ⟨rfl, rfl⟩
  strings := ⟨rfl, rfl⟩
  classify := ⟨rfl, rfl⟩
  register _ _ _ := ⟨rfl, rfl⟩
  scope := .closeScope

theorem balanced_run (fuel : Nat) (rule : Rule) (walk : Walk) :
    Balanced walk (run fuel rule walk).2 :=
  keptBySteps_balanced.run fuel rule walk (.inl fun _ => trivial)

/-! Between statements. -/

theorem inner_settle (walk : Walk) : walk.settle.scopes.inner = [] := by
  unfold settle
  split
  · next one =>
      simpa [ScopeStack.depth] using one
  · rfl

theorem settle_of_inner {walk : Walk} (global : walk.scopes.inner = []) :
    walk.settle = walk := by
  have one : walk.scopes.depth = 1 := by
    rw [ScopeStack.depth, global]
    rfl
  rw [settle, one]
  rfl

end Walk

end ComponentLang
