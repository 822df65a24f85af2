import Mathlib
import Scriptlet.Proofs.Evaluation.Reached

/-! What becomes of texts and arrays once they are made.  Only `pop` and `removeLast` change one, and they take an item
off one of its ends; whoever else refers to it sees the same.  So what is left of a sequence is always a connected part
of what it was. -/
namespace Scriptlet
open Relation (ReflTransGen)

/-- Of each list in `a`, what `a'` has in its place is a connected part. -/
def Narrows {α : Type} (a a' : Array (List α)) : Prop :=
  ∀ (i : Nat) (xs : List α), a[i]? = some xs → ∃ xs', a'[i]? = some xs' ∧ xs' <:+: xs

namespace Narrows
variable {α : Type} {a a' a'' : Array (List α)}

theorem refl (a : Array (List α)) : Narrows a a := fun _ xs h => ⟨xs, h, List.infix_rfl⟩

theorem trans (h : Narrows a a') (h' : Narrows a' a'') : Narrows a a'' := by
  intro i xs hxs
  obtain ⟨xs', hxs', hpart⟩ := h i xs hxs
  obtain ⟨xs'', hxs'', hpart'⟩ := h' i xs' hxs'
  exact ⟨xs'', hxs'', hpart'.trans hpart⟩

theorem push (a : Array (List α)) (new : List α) : Narrows a (a.push new) := by
  intro i xs hxs
  have hlt : i < a.size := (Array.getElem?_eq_some_iff.mp hxs).1
  have hkept : (a.push new)[i]? = a[i]? := by simp [Array.getElem?_push, Nat.ne_of_lt hlt]
  exact ⟨xs, hkept.trans hxs, List.infix_rfl⟩

theorem setIfInBounds {i : Nat} {xs part : List α} (hxs : a[i]? = some xs) (hpart : part <:+: xs) :
    Narrows a (a.setIfInBounds i part) := by
  intro j ys hys
  by_cases hj : i = j
  · subst hj
    have hlt : i < a.size := (Array.getElem?_eq_some_iff.mp hxs).1
    have heq : xs = ys := Option.some.inj (hxs.symm.trans hys)
    exact ⟨part, by simp [hlt], heq ▸ hpart⟩
  · exact ⟨ys, by simp [hj, hys], List.infix_rfl⟩

end Narrows

/-- From `s` to `s'` no text and no array loses anything but items at its ends. -/
structure Shrinks (s s' : State) : Prop where
  texts : Narrows s.texts s'.texts
  arrays : Narrows s.arrays s'.arrays

namespace Shrinks
variable {s s' s'' : State}

theorem refl (s : State) : Shrinks s s := ⟨.refl _, .refl _⟩

theorem trans (h : Shrinks s s') (h' : Shrinks s' s'') : Shrinks s s'' :=
  ⟨h.texts.trans h'.texts, h.arrays.trans h'.arrays⟩

end Shrinks

namespace Law

def shrinking (start : State) : Law :=
  ⟨Shrinks start, fun _ => Shrinks, fun _ _ => True, fun _ _ => True, fun _ => True⟩

theorem shrinking_next {start s s' : State} (E : ScopeId) (h : Shrinks start s) (hnext : Shrinks s s') :
    (shrinking start).Next E s s' := ⟨h.trans hnext, hnext⟩

theorem shrinking_closed (start : State) : (shrinking start).Closed where
  refl _ s := Shrinks.refl s
  trans h h' := Shrinks.trans h h'
  allows_mono _ _ := trivial
  knows_mono _ _ := trivial
  child _ _ := trivial
  null _ := trivial
  bool _ _ := trivial
  builtin _ _ := trivial
  int _ := trivial
  wrap _ _ := trivial
  textLength _ _ := trivial
  arrayLength _ _ := trivial
  fn _ _ := trivial
  body _ := trivial
  returned _ := trivial
  find _ _ _ := trivial
  element _ _ _ _ := trivial
  bind h _ _ _ _ := shrinking_next _ h ⟨.refl _, .refl _⟩
  -- A new scope holds no sequence, so the body starts with all of them as they are.
  enter h _ _ _ := ⟨⟨⟨h.texts, h.arrays⟩, trivial⟩, fun _ hbody => ⟨hbody.texts, hbody.arrays⟩⟩
  addText {s} E cs h := ⟨shrinking_next E h ⟨s.texts_addText cs ▸ .push _ cs, .refl _⟩, trivial⟩
  addArray E h _ := ⟨shrinking_next E h ⟨.refl _, .push _ _⟩, trivial⟩
  setText {s id _ cs'} E h hcs hpart :=
    shrinking_next E h ⟨s.texts_setText id cs' ▸ .setIfInBounds hcs hpart, .refl _⟩
  setArray E h hvs hpart := shrinking_next E h ⟨.refl _, .setIfInBounds hvs hpart⟩
  print E _ h := shrinking_next E h ⟨.refl _, .refl _⟩

end Law

namespace Eval
open Run
variable (settings : Settings)

theorem shrinks_of_outcome (w : Visit) : Shrinks w.state (w.outcome settings).2 := by
  have h := Law.keeps_eval (Law.shrinking_closed w.state) settings w.frames (E := w.scope) (n := w.node)
    ⟨Shrinks.refl w.state, trivial⟩ trivial
  exact h.next.1

variable {settings}

theorem shrinks_of_enters {v w : Visit} (hw : ReflTransGen (Visit.Enters settings) v w) : Shrinks v.state w.state := by
  have h := Law.ready_of_enters (Law.shrinking_closed v.state) ⟨Shrinks.refl v.state, trivial⟩ trivial hw
  exact h.1.holds

/-- At every point of an evaluation and after it, whatever its outcome, a text or an array that was there before holds
a connected part of what it held then. -/
theorem sequences_only_shrink (settings : Settings) {v w : Visit} (hw : ReflTransGen (Visit.Enters settings) v w) :
    Shrinks v.state w.state ∧ Shrinks v.state (w.outcome settings).2 ∧
      Shrinks v.state (v.outcome settings).2 ∧ Shrinks v.state (run settings v.scope v.node v.state).2 := by
  have hbefore := shrinks_of_enters hw
  have hrun := shrinks_of_outcome settings ⟨settings.frames, v.scope, v.node, v.state⟩
  refine ⟨hbefore, hbefore.trans (shrinks_of_outcome settings w), shrinks_of_outcome settings v, ?_⟩
  rw [run_state]
  exact hrun

def popThenCut : Visit :=
  ⟨4, 0, .block [.call (.ident "pop") [.ident "a"], .call (.ident "removeLast") [.ident "b"]],
    ((State.initial.addArray [.int 1, .int 2, .int 3]).put 0 "a" (.arr 0)).put 0 "b" (.arr 0)⟩

def cut : Visit := ⟨3, 0, .call (.ident "removeLast") [.ident "b"], popThenCut.state.setArray 0 [.int 2, .int 3]⟩

theorem popThenCut_only_shrinks :
    ReflTransGen (Visit.Enters ⟨.null, .flat, 4, 9⟩) popThenCut cut ∧ Shrinks popThenCut.state cut.state ∧
      Narrows popThenCut.state.arrays #[[.int 2]] := by
  have hpop : inOrder (inside ⟨.null, .flat, 4, 9⟩ 4 popThenCut.node 0) .null [.call (.ident "pop") [.ident "a"]]
      popThenCut.state = (.ok (.int 1), cut.state) := by cbv
  have hw : ReflTransGen (Visit.Enters ⟨.null, .flat, 4, 9⟩) popThenCut cut :=
    .single (.inl (.part (by decide) (.blockStmt hpop)))
  have hend : (cut.outcome ⟨.null, .flat, 4, 9⟩).2.arrays = #[[.int 2]] := by cbv
  have h := sequences_only_shrink ⟨.null, .flat, 4, 9⟩ hw
  exact ⟨hw, h.1, hend ▸ h.2.1.arrays⟩

end Eval
end Scriptlet
