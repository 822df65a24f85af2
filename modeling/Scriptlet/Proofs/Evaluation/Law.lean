import Scriptlet.Proofs.Evaluation.Visits
import Scriptlet.Proofs.Syntax.Inside

/-! Laws of evaluation.  A law says what holds of every state, how an evaluation may change the state, and which values,
scopes and nodes it may meet.  If the single operations on a state keep to a law, then so does the evaluation of every
node, and whatever is evaluated on the way starts in accordance with it. -/
namespace Scriptlet

/-- What evaluation may bring about and meet. -/
structure Law where
  Holds : State → Prop
  /-- How the state may change while a node is evaluated in a scope. -/
  Leads : ScopeId → State → State → Prop
  Allows : State → Value → Prop
  Knows : State → ScopeId → Prop
  Admits : Node → Prop

namespace Law
open Run

def Next (L : Law) (E : ScopeId) (s s' : State) : Prop := L.Holds s' ∧ L.Leads E s s'

structure Ready (L : Law) (E : ScopeId) (s : State) : Prop where
  holds : L.Holds s
  knows : L.Knows s E

/-- The single operations of an evaluation keep to a law, apart from taking the length of a sequence. -/
structure Sound (L : Law) : Prop where
  refl (E : ScopeId) (s : State) : L.Leads E s s
  trans {E : ScopeId} {s s' s'' : State} : L.Leads E s s' → L.Leads E s' s'' → L.Leads E s s''
  allows_mono {E : ScopeId} {s s' : State} {v : Value} : L.Leads E s s' → L.Allows s v → L.Allows s' v
  knows_mono {E F : ScopeId} {s s' : State} : L.Leads E s s' → L.Knows s F → L.Knows s' F
  child {n c : Node} : L.Admits n → c ∈ n.children → L.Admits c
  null (s : State) : L.Allows s .null
  bool (s : State) (b : Bool) : L.Allows s (.bool b)
  builtin (s : State) (b : Builtin) : L.Allows s (.builtin b)
  int {s : State} {n : Int} : L.Admits (.int n) → L.Allows s (.int n)
  wrap (s : State) (n : Int) : L.Allows s (.int (wrap n))
  fn {s : State} {E : ScopeId} {params : List String} {body : Node} :
    L.Admits (.fn params body) → L.Knows s E → L.Allows s (.fn params body E)
  body {s : State} {params : List String} {body : Node} {captured : ScopeId} :
    L.Allows s (.fn params body captured) → L.Admits body
  returned {s : State} {v : Value} : L.Allows s (.returned v) → L.Allows s v
  find {E : ScopeId} {s : State} {name : String} {v : Value} :
    L.Holds s → L.Knows s E → s.find? E name = some v → L.Allows s v
  element {s : State} {id : ArrayId} {vs : List Value} {v : Value} :
    L.Holds s → L.Allows s (.arr id) → s.arrays[id]? = some vs → v ∈ vs → L.Allows s v
  bind {E : ScopeId} {s : State} {scope : Scope} {name : String} {v : Value} :
    L.Holds s → L.Knows s E → s.scopes[E]? = some scope → L.Allows s v →
    (Builtin.ofName? name = none ∨ ∃ n, s.lookup E name = .int n) → L.Next E s (s.put E name v)
  /-- A call makes a scope for the body, and what the body does there is something that the caller may do. -/
  enter {E : ScopeId} {s : State} {params : List String} {body : Node} {captured : ScopeId} {vs : List Value} :
    L.Holds s → L.Allows s (.fn params body captured) → (∀ v ∈ vs, L.Allows s v) → params.length = vs.length →
    L.Ready s.scopes.size (s.addScope (Eval.localScope captured params vs)) ∧
      ∀ s', L.Leads s.scopes.size (s.addScope (Eval.localScope captured params vs)) s' → L.Leads E s s'
  addText {s : State} (E : ScopeId) (cs : List Char) :
    L.Holds s → L.Next E s (s.addText cs) ∧ L.Allows (s.addText cs) (.str s.texts.size)
  addArray {s : State} {vs : List Value} (E : ScopeId) :
    L.Holds s → (∀ v ∈ vs, L.Allows s v) → L.Next E s (s.addArray vs) ∧ L.Allows (s.addArray vs) (.arr s.arrays.size)
  setText {s : State} {id : TextId} {cs cs' : List Char} (E : ScopeId) :
    L.Holds s → s.texts[id]? = some cs → cs' <:+: cs → L.Next E s (s.setText id cs')
  setArray {s : State} {id : ArrayId} {vs vs' : List Value} (E : ScopeId) :
    L.Holds s → s.arrays[id]? = some vs → vs' <:+: vs → L.Next E s (s.setArray id vs')
  print {s : State} (E : ScopeId) (line : String) : L.Holds s → L.Next E s (s.print line)

/-- All single operations of an evaluation keep to a law. -/
structure Closed (L : Law) : Prop extends L.Sound where
  textLength {s : State} {id : TextId} {cs : List Char} :
    L.Holds s → s.texts[id]? = some cs → L.Allows s (.int cs.length)
  arrayLength {s : State} {id : ArrayId} {vs : List Value} :
    L.Holds s → s.arrays[id]? = some vs → L.Allows s (.int vs.length)

instance {L : Law} : Coe L.Closed L.Sound := ⟨Closed.toSound⟩

/-- What a run of a step in a scope leads to, from a state on, if it keeps to a law and its result satisfies `Q`. -/
def Keeps {α : Type} (L : Law) (E : ScopeId) (Q : State → α → Prop) (s : State) : Except Stop α × State → Prop
  | (.ok a, s') => L.Next E s s' ∧ Q s' a
  | (.error (.returned v), s') => L.Next E s s' ∧ L.Allows s' v
  | (.error _, s') => L.Next E s s'

/-- Evaluating parts keeps to a law and gives what it allows. -/
def Obeys (L : Law) (inner : ScopeId → Node → Run Value) : Prop :=
  ∀ (E : ScopeId) (n : Node) (s : State), L.Ready E s → L.Admits n → L.Keeps E L.Allows s (inner E n s)

section
variable {L : Law} {α β : Type} {E F : ScopeId} {Q : State → α → Prop} {Q' : State → β → Prop} {s s' s'' : State}
  {outcome : Except Stop α × State}

theorem Keeps.next (h : L.Keeps E Q s outcome) : L.Next E s outcome.2 := by
  rcases outcome with ⟨(_ | _ | _ | _ | _ | _) | _, s'⟩
  case ok | error.returned => exact h.1
  all_goals exact h

theorem Keeps.of_ok {a : α} (h : L.Keeps E Q s outcome) (hok : outcome = (.ok a, s')) : L.Next E s s' ∧ Q s' a := by
  rw [hok] at h
  exact h

theorem Keeps.of_returned {v : Value} (h : L.Keeps E Q s outcome) (hreturned : outcome = (.error (.returned v), s')) :
    L.Next E s s' ∧ L.Allows s' v := by
  rw [hreturned] at h
  exact h

/-- What may happen in one scope from one state on may happen in another scope from an earlier one. -/
theorem Keeps.transfer (h : L.Keeps F Q s' outcome) (hle : ∀ s'', L.Leads F s' s'' → L.Leads E s s'') :
    L.Keeps E Q s outcome := by
  have hnext {s''} (h : L.Next F s' s'') : L.Next E s s'' := ⟨h.1, hle s'' h.2⟩
  rcases outcome with ⟨(_ | _ | _ | _ | _ | _) | _, s''⟩
  case ok | error.returned => exact ⟨hnext h.1, h.2⟩
  all_goals exact hnext h

theorem Keeps.mono {Q' : State → α → Prop} (h : L.Keeps E Q s outcome)
    (hQ : ∀ a s', L.Next E s s' → Q s' a → Q' s' a) : L.Keeps E Q' s outcome := by
  rcases outcome with ⟨why | a, s'⟩
  · cases why <;> exact h
  · exact ⟨h.1, hQ a s' h.1 h.2⟩

variable (hL : L.Sound)
include hL

theorem Next.refl (E : ScopeId) (h : L.Holds s) : L.Next E s s := ⟨h, hL.refl E s⟩

theorem Next.trans (h : L.Next E s s') (h' : L.Next E s' s'') : L.Next E s s'' := ⟨h'.1, hL.trans h.2 h'.2⟩

theorem Ready.next (h : L.Ready E s) (hnext : L.Next E s s') : L.Ready E s' :=
  ⟨hnext.1, hL.knows_mono hnext.2 h.knows⟩

theorem Keeps.after (hnext : L.Next E s s') (h : L.Keeps E Q s' outcome) : L.Keeps E Q s outcome :=
  h.transfer fun _ => hL.trans hnext.2

theorem keeps_pure {a : α} (h : L.Holds s) (ha : Q s a) : L.Keeps E Q s ((pure a : Run α) s) :=
  ⟨Next.refl hL E h, ha⟩

theorem keeps_fail {e : EvalError} (h : L.Holds s) : L.Keeps E Q s ((fail e : Run α) s) := Next.refl hL E h

theorem keeps_bind {r : Run α} {f : α → Run β} (hr : L.Keeps E Q s (r s))
    (hf : ∀ a s', r s = (.ok a, s') → L.Next E s s' → Q s' a → L.Keeps E Q' s' (f a s')) :
    L.Keeps E Q' s ((r >>= f) s) := by
  rcases h : r s with ⟨why | a, s'⟩
  · rw [bind_of_error h]
    rw [h] at hr
    cases why <;> exact hr
  · rw [bind_of_ok h]
    obtain ⟨hnext, ha⟩ := hr.of_ok h
    exact (hf a s' h hnext ha).after hL hnext

theorem keeps_find {f : State → Option α} (h : L.Holds s) :
    L.Keeps E (fun s' a => f s' = some a) s (find f s) := by
  unfold find
  split
  · next a ha => exact ⟨Next.refl hL E h, ha⟩
  · exact Next.refl hL E h

theorem keeps_makeText {room frames : Nat} {t : String} (h : L.Holds s) :
    L.Keeps E (fun _ _ => True) s (makeText room frames t s) := by
  by_cases hroom : frames ≤ room <;> simp only [makeText, hroom, if_true, if_false]
  · exact keeps_pure hL h trivial
  · exact Next.refl hL E h

theorem keeps_use {v : Value} (h : L.Holds s) (hv : L.Allows s v) : L.Keeps E L.Allows s (use v s) := by
  have hnext := Next.refl hL E h
  cases v with
  | returned v => exact ⟨hnext, hL.returned hv⟩
  | error e => exact hnext
  | _ => exact ⟨hnext, hv⟩

theorem keeps_endReturn {r : Run Value} (hr : L.Keeps E L.Allows s (r s)) :
    L.Keeps E L.Allows s (endReturn r s) := by
  unfold endReturn
  split
  · next v s' h =>
    obtain ⟨hnext, hv⟩ := hr.of_returned h
    exact (keeps_use hL hnext.1 hv).after hL hnext
  · exact hr

theorem keeps_each {ι : Type} {step : ι → Run Value} {items : List ι}
    (hstep : ∀ item ∈ items, ∀ s, L.Ready E s → L.Keeps E L.Allows s (step item s)) (h : L.Ready E s) :
    L.Keeps E (fun s' vs => ∀ v ∈ vs, L.Allows s' v) s (each step items s) := by
  induction items generalizing s with
  | nil => exact keeps_pure hL h.holds (by simp)
  | cons item items ih =>
    have hitem := hstep item List.mem_cons_self s h
    have hitems := fun item hmem => hstep item (List.mem_cons_of_mem _ hmem)
    refine keeps_bind hL hitem fun v s' _ hnext hv => ?_
    refine keeps_bind hL (ih hitems (h.next hL hnext)) fun vs s'' _ hnext' hvs => ?_
    refine keeps_pure hL hnext'.1 fun u hu => ?_
    rcases List.mem_cons.mp hu with rfl | hu
    · exact hL.allows_mono hnext'.2 hv
    · exact hvs u hu

theorem keeps_inOrder {ι : Type} {step : ι → Run Value} {items : List ι} {last : Value}
    (hstep : ∀ item ∈ items, ∀ s, L.Ready E s → L.Keeps E L.Allows s (step item s)) (h : L.Ready E s)
    (hlast : L.Allows s last) : L.Keeps E L.Allows s (inOrder step last items s) := by
  induction items generalizing s last with
  | nil => exact keeps_pure hL h.holds hlast
  | cons item items ih =>
    have hitem := hstep item List.mem_cons_self s h
    have hitems := fun item hmem => hstep item (List.mem_cons_of_mem _ hmem)
    exact keeps_bind hL hitem fun v s' _ hnext hv => ih hitems (h.next hL hnext) hv

section
variable {test : Run Bool} {body : Run Value} (htest : ∀ s, L.Ready E s → L.Keeps E (fun _ _ => True) s (test s))
  (hbody : ∀ s, L.Ready E s → L.Keeps E L.Allows s (body s))
include htest hbody

theorem next_rounds {k : Nat} (hrounds : Rounds test body k s s') (h : L.Ready E s) : L.Next E s s' := by
  induction hrounds with
  | none => exact Next.refl hL E h.holds
  | @more k s s₁ s₂ s' v ht hb _ ih =>
    -- One round leads from `s` to `s₂`, the others from there.
    have hnext₁ := ((htest s h).of_ok ht).1
    have hnext₂ := ((hbody s₁ (h.next hL hnext₁)).of_ok hb).1
    have hnext := hnext₁.trans hL hnext₂
    exact hnext.trans hL (ih (h.next hL hnext))

theorem keeps_repeatWhile {bound : Nat} (h : L.Ready E s) : L.Keeps E L.Allows s (repeatWhile test body bound s) := by
  induction bound generalizing s with
  | zero => exact Next.refl hL E h.holds
  | succ bound ih =>
    have hkeeps := htest s h
    unfold repeatWhile
    split
    · next s₁ ht =>
      have hnext := (hkeeps.of_ok ht).1
      have hkeeps₁ := hbody s₁ (h.next hL hnext)
      split
      · next v s₂ hb =>
        have hnext₂ := hnext.trans hL (hkeeps₁.of_ok hb).1
        exact (ih (h.next hL hnext₂)).after hL hnext₂
      · next why s₂ hb =>
        rw [hb] at hkeeps₁
        exact Keeps.after hL hnext (by cases why <;> exact hkeeps₁)
    · next s₁ ht => exact ⟨(hkeeps.of_ok ht).1, hL.null s₁⟩
    · next why s₁ ht =>
      rw [ht] at hkeeps
      cases why <;> exact hkeeps

end

end

def and (L M : Law) : Law where
  Holds s := L.Holds s ∧ M.Holds s
  Leads E s s' := L.Leads E s s' ∧ M.Leads E s s'
  Allows s v := L.Allows s v ∧ M.Allows s v
  Knows s E := L.Knows s E ∧ M.Knows s E
  Admits n := L.Admits n ∧ M.Admits n

theorem Next.and {L M : Law} {E : ScopeId} {s s' : State} (hL : L.Next E s s') (hM : M.Next E s s') :
    (L.and M).Next E s s' := ⟨⟨hL.1, hM.1⟩, ⟨hL.2, hM.2⟩⟩

theorem Ready.and {L M : Law} {E : ScopeId} {s : State} (hL : L.Ready E s) (hM : M.Ready E s) :
    (L.and M).Ready E s := ⟨⟨hL.holds, hM.holds⟩, ⟨hL.knows, hM.knows⟩⟩

theorem Closed.and {L M : Law} (hL : L.Closed) (hM : M.Closed) : (L.and M).Closed where
  refl E s := ⟨hL.refl E s, hM.refl E s⟩
  trans h h' := ⟨hL.trans h.1 h'.1, hM.trans h.2 h'.2⟩
  allows_mono h hv := ⟨hL.allows_mono h.1 hv.1, hM.allows_mono h.2 hv.2⟩
  knows_mono h hF := ⟨hL.knows_mono h.1 hF.1, hM.knows_mono h.2 hF.2⟩
  child hn hc := ⟨hL.child hn.1 hc, hM.child hn.2 hc⟩
  null s := ⟨hL.null s, hM.null s⟩
  bool s b := ⟨hL.bool s b, hM.bool s b⟩
  builtin s b := ⟨hL.builtin s b, hM.builtin s b⟩
  int hn := ⟨hL.int hn.1, hM.int hn.2⟩
  wrap s n := ⟨hL.wrap s n, hM.wrap s n⟩
  textLength h hcs := ⟨hL.textLength h.1 hcs, hM.textLength h.2 hcs⟩
  arrayLength h hvs := ⟨hL.arrayLength h.1 hvs, hM.arrayLength h.2 hvs⟩
  fn hn hE := ⟨hL.fn hn.1 hE.1, hM.fn hn.2 hE.2⟩
  body hv := ⟨hL.body hv.1, hM.body hv.2⟩
  returned hv := ⟨hL.returned hv.1, hM.returned hv.2⟩
  find h hE hv := ⟨hL.find h.1 hE.1 hv, hM.find h.2 hE.2 hv⟩
  element h hid hvs hv := ⟨hL.element h.1 hid.1 hvs hv, hM.element h.2 hid.2 hvs hv⟩
  bind h hE hscope hv hname := (hL.bind h.1 hE.1 hscope hv.1 hname).and (hM.bind h.2 hE.2 hscope hv.2 hname)
  enter {E _ _ _ _ _} h hfn hvs hlength := by
    have hreadyL := hL.enter (E := E) h.1 hfn.1 (fun v hv => (hvs v hv).1) hlength
    have hreadyM := hM.enter (E := E) h.2 hfn.2 (fun v hv => (hvs v hv).2) hlength
    exact ⟨hreadyL.1.and hreadyM.1, fun s' hbody => ⟨hreadyL.2 s' hbody.1, hreadyM.2 s' hbody.2⟩⟩
  addText E cs h :=
    ⟨(hL.addText E cs h.1).1.and (hM.addText E cs h.2).1, (hL.addText E cs h.1).2, (hM.addText E cs h.2).2⟩
  addArray {_ vs} E h hvs := by
    have hnewL := hL.addArray E h.1 fun v hv => (hvs v hv).1
    have hnewM := hM.addArray E h.2 fun v hv => (hvs v hv).2
    exact ⟨hnewL.1.and hnewM.1, hnewL.2, hnewM.2⟩
  setText E h hcs hpart := (hL.setText E h.1 hcs hpart).and (hM.setText E h.2 hcs hpart)
  setArray E h hvs hpart := (hL.setArray E h.1 hvs hpart).and (hM.setArray E h.2 hvs hpart)
  print E line h := (hL.print E line h.1).and (hM.print E line h.2)

end Law
end Scriptlet
