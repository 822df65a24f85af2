import Mathlib
import Scriptlet.Proofs.Evaluation.Mirroring
import Scriptlet.Proofs.Evaluation.Reached
import Scriptlet.Proofs.Evaluation.Values
import Scriptlet.Proofs.Parsing.Forms
import Scriptlet.Proofs.Parsing.Trees

/-! Integers of 32 bits.  Literals and the results of operators are such integers.  A length is what it is, so all
integers remain so as long as the sequences are short of 2147483648 items whose length a program asks for. -/
namespace Scriptlet
open Relation (ReflTransGen)

def IsInt32 (n : Int) : Prop := -2147483648 ≤ n ∧ n ≤ 2147483647

theorem isInt32_wrap (n : Int) : IsInt32 (wrap n) := by
  have h := wrap_mem n
  unfold IsInt32
  omega

def Node.WordLiterals (n : Node) : Prop := ∀ k, n.Inside (.int k) → IsInt32 k

theorem Node.WordLiterals.child {n c : Node} (h : n.WordLiterals) (hc : c ∈ n.children) : c.WordLiterals :=
  fun k hk => h k (.head hc hk)

theorem Node.wordLiterals_of_formed {place : Place} {n : Node} (h : n.Formed place) : n.WordLiterals := by
  intro k hk
  obtain ⟨place', hint⟩ := h.inside hk
  cases hint with
  | int hpos hmax => exact ⟨by omega, hmax⟩

def Value.Words : Value → Prop
  | int n => IsInt32 n
  | fn _ body _ => body.WordLiterals
  | returned v => Words v
  | _ => True

namespace Eval
open Run

section
variable (settings : Settings) (room : Nat) (inner : ScopeId → Node → Run Value) (E : ScopeId) (n : Node) (s : State)

/-- The evaluations that a node gets to from a state on.  All others are cut off. -/
noncomputable def reached (F : ScopeId) (c : Node) : Run Value := fun s' =>
  open Classical in
  if F = E ∧ Passes settings inner E n s c s' ∨ Catches inner E n s F c s' then inner F c s' else (.error .tooDeep, s')

theorem node_reached : node settings room inner E n s = node settings room (reached settings inner E n s) E n s := by
  refine node_congr (fun c s' hpasses => ?_) fun F c s' hcatches => ?_
  · exact (if_pos (.inl ⟨rfl, hpasses⟩)).symm
  · exact (if_pos (.inr hcatches)).symm

variable {settings inner E n s}

theorem eq_of_reached_ok {F : ScopeId} {c : Node} {v : Value} {s₁ s₂ : State}
    (h : reached settings inner E n s F c s₁ = (.ok v, s₂)) : inner F c s₁ = (.ok v, s₂) := by
  unfold reached at h
  split at h
  · exact h
  · cases h

theorem each_of_reached_ok {F : ScopeId} {es : List Node} {vs : List Value} {s₁ s₂ : State}
    (h : each (reached settings inner E n s F) es s₁ = (.ok vs, s₂)) : each (inner F) es s₁ = (.ok vs, s₂) := by
  induction es generalizing vs s₁ s₂ with
  | nil => exact h
  | cons e es ih =>
    obtain ⟨v, s', he, hrest⟩ := bind_eq_ok.mp h
    obtain ⟨ws, s'', hes, hpure⟩ := bind_eq_ok.mp hrest
    exact bind_eq_ok.mpr ⟨v, s', eq_of_reached_ok he, bind_eq_ok.mpr ⟨ws, s'', ih hes, hpure⟩⟩

end

end Eval

namespace Law
open Eval Run

theorem makes_words : Makes Node.WordLiterals Value.Words where
  child h hc := h.child hc
  null := trivial
  bool _ := trivial
  builtin _ := trivial
  literal h := h _ .refl
  wrap _ := isInt32_wrap _
  str _ := trivial
  arr _ := trivial
  fn _ h := h.child (by simp [Node.children])
  body hv := hv
  returned hv := hv

section
variable {L : Law} {settings : Settings} {room : Nat} (hL : L.Sound)
include hL

theorem keeps_node_of_parts {inner : ScopeId → Node → Run Value} {E : ScopeId} {n : Node} {s : State}
    (hserves : L.Serves settings room inner E n s)
    (hpasses : ∀ c s', Passes settings inner E n s c s' → L.Ready E s' → L.Admits c →
      L.Keeps E L.Allows s' (inner E c s'))
    (hcatches : ∀ F c s', Catches inner E n s F c s' → L.Ready F s' → L.Admits c →
      L.Keeps F L.Allows s' (inner F c s'))
    (h : L.Ready E s) (hn : L.Admits n) : L.Keeps E L.Allows s (node settings room inner E n s) := by
  have hobeys : L.Obeys (reached settings inner E n s) := by
    intro F c s' hready hc
    unfold reached
    split
    · next hpart =>
      rcases hpart with ⟨rfl, hpart⟩ | hpart
      · exact hpasses c s' hpart hready hc
      · exact hcatches F c s' hpart hready hc
    · exact Next.refl hL F hready.holds
  have hserves' : L.Serves settings room (reached settings inner E n s) E n s := by
    intro f es b vs s₁ s₂ hcall hf hvs
    exact hserves f es b vs s₁ s₂ hcall (eq_of_reached_ok hf) (each_of_reached_ok hvs)
  rw [node_reached]
  exact keeps_node hL hobeys hserves' h hn

/-- An evaluation keeps to a law if all lengths accord with it that are asked for on the way. -/
theorem keeps_outcome_of_lengths {v : Visit}
    (hlength : ∀ w args s, ReflTransGen (Visit.Enters settings) v w → w.Applies settings (.builtin .len) args s →
      ∀ holder : Builtin.Holder, holder.Current s → args = [holder.value] → L.Allows s (.int holder.size))
    (h : L.Ready v.scope v.state) (hn : L.Admits v.node) :
    L.Keeps v.scope L.Allows v.state (v.outcome settings) := by
  obtain ⟨frames, E, n, s⟩ := v
  dsimp only [Visit.outcome] at h hn ⊢
  induction frames, E, n using eval.induct settings generalizing s with
  | case1 frames E n hfits ih =>
    rw [eval_of_fits hfits]
    refine keeps_node_of_parts hL ?_ (fun c s' hpart hready hc => ?_) (fun F c s' hpart hready hc => ?_) h hn
    · intro f es b vs s₁ s₂ hcall hf hvs hholds hallows
      by_cases hb : b = .len
      · subst hb
        have happlies : Visit.Applies settings ⟨frames, E, n, s⟩ (.builtin .len) vs s₂ :=
          ⟨f, es, s₁, hcall, hfits, hf, hvs⟩
        exact keeps_len hL hholds (hlength _ vs s₂ .refl happlies)
      · exact keeps_builtin_of_ne_len hL hb hholds hallows
    · exact ih E c s' (fun w args s hw => hlength w args s (.head (.inl (.part hfits hpart)) hw)) hready hc
    · exact ih F c s' (fun w args s hw => hlength w args s (.head (.inr (.part hfits hpart)) hw)) hready hc
  | case2 frames E n hfull =>
    rw [eval_of_not_fits hfull]
    exact Next.refl hL E h.holds

end

end Law

namespace Eval
open Run Law

/-- No sequence has more than 2147483647 items whose length is asked for on the way. -/
def Visit.MeasuresShort (settings : Settings) (v : Visit) : Prop :=
  ∀ (w : Visit) (args : List Value) (s : State), ReflTransGen (Enters settings) v w →
    w.Applies settings (.builtin .len) args s →
    ∀ holder : Builtin.Holder, holder.Current s → args = [holder.value] → holder.size ≤ 2147483647

/-- A program with such literals that asks for the lengths of such sequences only, and that starts with nothing but
words, answers a word if it answers an integer and leaves nothing but words in all scopes and arrays. -/
theorem integers_stay_words (settings : Settings) {scope : ScopeId} {n : Node} {s : State}
    (hs : s.Every Value.Words) (hn : n.WordLiterals)
    (hlength : Visit.MeasuresShort settings ⟨settings.frames, scope, n, s⟩) :
    (∀ v, (run settings scope n s).1 = .value v → v.Words) ∧ (run settings scope n s).2.Every Value.Words := by
  have hwords (w : Visit) (args : List Value) (s' : State)
      (hw : ReflTransGen (Visit.Enters settings) ⟨settings.frames, scope, n, s⟩ w)
      (happlies : w.Applies settings (.builtin .len) args s') (holder : Builtin.Holder) (hholder : holder.Current s')
      (hargs : args = [holder.value]) : IsInt32 holder.size := by
    have hshort := hlength w args s' hw happlies holder hholder hargs
    exact ⟨by omega, by omega⟩
  have hkeeps := keeps_outcome_of_lengths (every_sound makes_words) hwords ⟨hs, trivial⟩ hn
  obtain ⟨hholds, hvalue⟩ := answers_of_keeps settings hkeeps
  refine ⟨fun v hv => ?_, hholds⟩
  rcases hvalue v hv with ⟨e, rfl⟩ | hwords
  · trivial
  · exact hwords

theorem measuresShort_callOfText {b : Builtin} {t : String} (ht : t.length ≤ 2147483647) :
    (callOfText b t).MeasuresShort ⟨.null, .flat, 9, 9⟩ := by
  intro w args s hw happlies holder hholder hargs
  obtain ⟨-, rfl, rfl⟩ := eq_of_applies_callOfText hw happlies
  cases holder with
  | text id u =>
    obtain rfl : 0 = id := by simpa [Builtin.Holder.value] using hargs
    rw [Builtin.Holder.Current, State.texts_addString] at hholder
    have hu : t = u := by simpa [State.initial, State.texts, String.toList_inj] using hholder
    exact hu ▸ ht
  | array id vs => simp [Builtin.Holder.value] at hargs

set_option maxRecDepth 8000 in
theorem lengthOfText_stays_word :
    State.initial.Every Value.Words ∧ (callOfText .len "ab").node.WordLiterals ∧
      (callOfText .len "ab").MeasuresShort ⟨.null, .flat, 9, 9⟩ ∧
      (run ⟨.null, .flat, 9, 9⟩ 0 (callOfText .len "ab").node .initial).1 = .value (.int 2) ∧ IsInt32 2 := by
  have hparsed : Program.parse "len(\"ab\")" = .ok (.program [.exprStmt (callOfText .len "ab").node]) := by cbv
  have hinside : (Node.program [.exprStmt (callOfText .len "ab").node]).Inside (callOfText .len "ab").node :=
    .head (List.mem_singleton_self _) (.head (List.mem_singleton_self _) .refl)
  obtain ⟨place, hformed⟩ := (Grammar.formed_of_parse hparsed).inside hinside
  have hliterals := Node.wordLiterals_of_formed hformed
  have hshort : (callOfText .len "ab").MeasuresShort ⟨.null, .flat, 9, 9⟩ := measuresShort_callOfText (by decide)
  have hrun : (run ⟨.null, .flat, 9, 9⟩ 0 (callOfText .len "ab").node .initial).1 = .value (.int 2) := by cbv
  have h := integers_stay_words ⟨.null, .flat, 9, 9⟩ (.initial _) hliterals hshort
  exact ⟨.initial _, hliterals, hshort, hrun, h.1 _ hrun⟩

def holding (t : String) : State := (State.initial.addString t).put State.globalScope "s" (.str 0)

def lengthOfVariable : Node := .program [.exprStmt (.call (.ident "len") [.ident "s"])]

theorem lookup_holding (t : String) : (holding t).lookup State.globalScope "s" = .str 0 := by
  rw [State.lookup, State.find?]
  rfl

theorem run_lengthOfVariable (t : String) :
    run ⟨.null, .flat, 9, 9⟩ State.globalScope lengthOfVariable (holding t) = (.value (.int t.length), holding t) := by
  have harg : eval ⟨.null, .flat, 9, 9⟩ 6 0 (.ident "s") (holding t) = (.ok (.str 0), holding t) := by
    have hname : Builtin.ofName? "s" = none := by decide
    rw [eval_of_fits (by decide)]
    simp only [node, ident, hname]
    show use ((holding t).lookup State.globalScope "s") (holding t) = _
    rw [lookup_holding]
    rfl
  have hcall : eval ⟨.null, .flat, 9, 9⟩ 7 0 (.call (.ident "len") [.ident "s"]) (holding t) =
      (.ok (.int t.length), holding t) := by
    rw [eval_of_fits (by decide)]
    exact (bind_of_ok (eval_builtin (b := .len) (by decide))).trans ((bind_of_ok (each_cons_of_ok harg rfl)).trans rfl)
  have hstmt : eval ⟨.null, .flat, 9, 9⟩ 8 0 (.exprStmt (.call (.ident "len") [.ident "s"])) (holding t) =
      (.ok (.int t.length), holding t) := by
    rw [eval_of_fits (by decide)]
    exact hcall
  have hprogram : eval ⟨.null, .flat, 9, 9⟩ 9 0 lengthOfVariable (holding t) = (.ok (.int t.length), holding t) := by
    have hbody : inOrder (inside ⟨.null, .flat, 9, 9⟩ 9 lengthOfVariable 0) .null
        [.exprStmt (.call (.ident "len") [.ident "s"])] (holding t) = (.ok (.int t.length), holding t) :=
      (bind_of_ok hstmt).trans rfl
    rw [eval_of_fits (by decide)]
    show endReturn (inOrder _ .null [_]) (holding t) = _
    simp only [endReturn, hbody]
  simp only [run, State.globalScope, hprogram]

set_option maxRecDepth 8000 in
/-- So integers do not stay words whatever a program does: the length of a text of 2147483648 characters is none. -/
theorem length_of_long_text_not_word :
    ¬ ∀ (n : Node) (s : State), Program.Parsed n → s.Every Value.Words →
      ∀ v, (run ⟨.null, .flat, 9, 9⟩ State.globalScope n s).1 = .value v → v.Words := by
  intro hwords
  have hparsed : Program.Parsed lengthOfVariable := ⟨"len(s)", by cbv⟩
  have hlength (t : String) : IsInt32 t.length := by
    have h := hwords lengthOfVariable (holding t) hparsed ?_ (.int t.length) ?_
    · exact h
    · exact State.Every.put ⟨(State.Every.initial _).bindings, (State.Every.initial _).elements⟩ trivial
    · rw [run_lengthOfVariable]
  have h := (hlength (String.ofList (List.replicate 2147483648 'a'))).2
  rw [String.length_ofList, List.length_replicate] at h
  omega

end Eval
end Scriptlet
