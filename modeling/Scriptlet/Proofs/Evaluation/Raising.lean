import Scriptlet.Proofs.Evaluation.Visits

/-! Where stops come from.  A node that stops either lets out what stopped a part of it, or raises the stop by itself
once the parts before have given their values.  So each stop of an evaluation was raised at one node on its way. -/
namespace Scriptlet
open Relation (ReflTransGen)

namespace Eval
open Run

section
variable (settings : Settings) (room : Nat) (inner : ScopeId → Node → Run Value) (scope : ScopeId)

/-- In state `s` a node stops by itself, with state `s'` left. -/
inductive Raises : Node → State → Stop → State → Prop
  | returned {e v s s'} (he : inner scope e s = (.ok v, s')) : Raises (.returnStmt e) s (.returned v) s'
  | builtinName {x e v s s'} (he : inner scope e s = (.ok v, s')) (hx : (Builtin.ofName? x).isSome) :
      Raises (.letStmt x e) s (.failed (.builtinName x)) s'
  | noScope {x e v s s'} (he : inner scope e s = (.ok v, s')) (hscope : s'.scopes[scope]? = none) :
      Raises (.letStmt x e) s .broken s'
  | ident {x why s s'} (h : use (s.lookup scope x) s = (.error why, s')) : Raises (.ident x) s why s'
  | prefixOp {op e v err s s'} (he : inner scope e s = (.ok v, s')) (hop : op.applyPrefix v = .error err) :
      Raises (.prefixOp op e) s (.failed err) s'
  | infixOp {op l r v w err s s₁ s'} (hl : inner scope l s = (.ok v, s₁)) (hr : inner scope r s₁ = (.ok w, s'))
      (hop : op.applyInfix v w = .error err) : Raises (.infixOp op l r) s (.failed err) s'
  | postfixOp {op e why s s'} (h : postfixOp settings room scope op e s = (.error why, s')) :
      Raises (.postfixOp op e) s why s'
  | ifThen {c y v why s s₁ s'} (hc : inner scope c s = (.ok v, s₁))
      (hv : truth .ifCondition v s₁ = (.error why, s')) : Raises (.ifThen c y) s why s'
  | ifElse {c y n v why s s₁ s'} (hc : inner scope c s = (.ok v, s₁))
      (hv : truth .ifCondition v s₁ = (.error why, s')) : Raises (.ifElse c y n) s why s'
  | whileCondition {c b v why k s s₁ s₂ s'}
      (hrounds : Rounds (do truth .whileCondition (← inner scope c)) (inner scope b) k s s₁)
      (hk : k < settings.patience) (hc : inner scope c s₁ = (.ok v, s₂))
      (hv : truth .whileCondition v s₂ = (.error why, s')) : Raises (.whileStmt c b) s why s'
  | rounds {c b s s'}
      (hrounds : Rounds (do truth .whileCondition (← inner scope c)) (inner scope b) settings.patience s s') :
      Raises (.whileStmt c b) s .interrupted s'
  | notInvocable {f args v s s'} (hf : inner scope f s = (.ok v, s')) (hbuiltin : ∀ b, v ≠ .builtin b)
      (hfn : ∀ params body captured, v ≠ .fn params body captured) :
      Raises (.call f args) s (.failed (.notInvocable v.type)) s'
  | argumentCount {f params body captured args s s'} (hf : inner scope f s = (.ok (.fn params body captured), s'))
      (hlength : params.length ≠ args.length) :
      Raises (.call f args) s (.failed (.argumentCount params.length args.length)) s'
  | builtin {f b args vs why s s₁ s₂ s'} (hf : inner scope f s = (.ok (.builtin b), s₁))
      (hargs : each (inner scope) args s₁ = (.ok vs, s₂))
      (hb : (do use (← b.call settings room vs)) s₂ = (.error why, s')) : Raises (.call f args) s why s'
  | notIndexable {t i v s s'} (ht : inner scope t s = (.ok v, s')) (harr : ∀ id, v ≠ .arr id)
      (hstr : ∀ id, v ≠ .str id) : Raises (.index t i) s (.failed (.notIndexable v.type)) s'
  | arrayItem {t i id v why s s₁ s₂ s'} (ht : inner scope t s = (.ok (.arr id), s₁))
      (hi : inner scope i s₁ = (.ok v, s₂))
      (hitem : (do let n ← asPosition v; use (← select .array (← array id) n)) s₂ = (.error why, s')) :
      Raises (.index t i) s why s'
  | noText {t i id s s'} (ht : inner scope t s = (.ok (.str id), s')) (hcs : s'.texts[id]? = none) :
      Raises (.index t i) s .broken s'
  | stringItem {t i id cs v why s s₁ s₂ s'} (ht : inner scope t s = (.ok (.str id), s₁)) (hcs : s₁.texts[id]? = some cs)
      (hi : inner scope i s₁ = (.ok v, s₂))
      (hitem : (do let n ← asPosition v; newText [← select .string cs n]) s₂ = (.error why, s')) :
      Raises (.index t i) s why s'
  | token {t s} : Raises (.token t) s (.failed (.unknownNode t)) s
  /-- A value that a `return` brought is no value for a program or a call to give. -/
  | signal {n F n' v why s s₁ s₂ s'} (hpart : Catches inner scope n s F n' s₁)
      (hstop : inner F n' s₁ = (.error (.returned v), s₂)) (huse : use v s₂ = (.error why, s')) : Raises n s why s'

/-- A node stops because a part of it has stopped, or by itself. -/
inductive Stems (n : Node) (s : State) (why : Stop) (s' : State) : Prop
  | passed {n' s₁} (hpart : Passes settings inner scope n s n' s₁) (hstop : inner scope n' s₁ = (.error why, s'))
  | caught {F n' s₁} (hpart : Catches inner scope n s F n' s₁) (hstop : inner F n' s₁ = (.error why, s'))
      (hwhy : ∀ v, why ≠ .returned v)
  | raised (h : Raises settings room inner scope n s why s')

end

section
variable {settings : Settings} {room : Nat} {inner : ScopeId → Node → Run Value} {scope : ScopeId} {n : Node}
  {s s' : State} {why : Stop}

theorem stems_of_bind {α : Type} {part : Node} {rest : Value → Run α} {s₁ : State}
    (hpart : Passes settings inner scope n s part s₁) (h : (inner scope part >>= rest) s₁ = (.error why, s'))
    (hrest : ∀ v s₂, inner scope part s₁ = (.ok v, s₂) → rest v s₂ = (.error why, s') →
      Stems settings room inner scope n s why s') : Stems settings room inner scope n s why s' := by
  rcases bind_eq_error.mp h with hstop | ⟨v, s₂, hv, hstop⟩
  · exact .passed hpart hstop
  · exact hrest v s₂ hv hstop

theorem stems_of_endReturn {r : Run Value} {s₁ : State} (h : endReturn r s₁ = (.error why, s'))
    (hr : ∀ {why s'}, r s₁ = (.error why, s') →
      ∃ F n' s₂, Catches inner scope n s F n' s₂ ∧ inner F n' s₂ = (.error why, s')) :
    Stems settings room inner scope n s why s' := by
  rcases endReturn_eq_error h with ⟨hstop, hwhy⟩ | ⟨v, s₂, hstop, huse⟩
  · obtain ⟨F, n', s₃, hpart, hstop⟩ := hr hstop
    exact .caught hpart hstop hwhy
  · obtain ⟨F, n', s₃, hpart, hstop⟩ := hr hstop
    exact .raised (.signal hpart hstop huse)

theorem ofExcept_eq_error {r : Except EvalError Value} (h : ofExcept r s = (.error why, s')) :
    ∃ e, r = .error e ∧ why = .failed e ∧ s' = s := by
  cases r with
  | ok v => cases h
  | error e => exact ⟨e, rfl, fail_eq_error h⟩

theorem stems_of_letStmt {x : String} {e : Node} (h : letStmt inner scope x e s = (.error why, s')) :
    Stems settings room inner scope (.letStmt x e) s why s' := by
  refine stems_of_bind .letStmt h fun v s₁ he hrest => ?_
  split at hrest
  · next hx =>
    obtain ⟨rfl, rfl⟩ := fail_eq_error hrest
    exact .raised (.builtinName he hx)
  · rcases bind_eq_error.mp hrest with hbind | ⟨_, _, -, hdone⟩
    · obtain ⟨hscope, rfl, rfl⟩ := bindName_eq_error hbind
      exact .raised (.noScope he hscope)
    · cases hdone

theorem stems_of_whileStmt {c b : Node} (h : whileStmt settings inner scope c b s = (.error why, s')) :
    Stems settings room inner scope (.whileStmt c b) s why s' := by
  rcases repeatWhile_eq_error h with
    ⟨k, s₁, hk, hrounds, htest⟩ | ⟨k, s₁, s₂, hk, hrounds, htest, hbody⟩ | ⟨rfl, hrounds⟩
  · rcases bind_eq_error.mp htest with hstop | ⟨v, s₂, hc, hv⟩
    · exact .passed (.whileCondition hrounds hk) hstop
    · exact .raised (.whileCondition hrounds hk hc hv)
  · obtain ⟨v, s₃, hc, htruth⟩ := bind_eq_ok.mp htest
    obtain ⟨rfl, rfl⟩ := truth_eq_ok.mp htruth
    exact .passed (.whileBody hrounds hk hc) hbody
  · exact .raised (.rounds hrounds)

theorem stems_of_callFunction {f body : Node} {params : List String} {captured : ScopeId} {args : List Node}
    {s₁ : State} (hf : inner scope f s = (.ok (.fn params body captured), s₁))
    (h : callFunction inner scope params body captured args s₁ = (.error why, s')) :
    Stems settings room inner scope (.call f args) s why s' := by
  unfold callFunction at h
  split at h
  · next hlength =>
    obtain ⟨rfl, rfl⟩ := fail_eq_error h
    exact .raised (.argumentCount hf hlength)
  · next hlength =>
    have hlength := Decidable.not_not.mp hlength
    rcases bind_eq_error.mp h with hargs | ⟨vs, s₂, hargs, hbody⟩
    · obtain ⟨before, e, after, vs, s₂, rfl, hbefore, hstop⟩ := each_eq_error hargs
      exact .passed (.functionArg hf hlength hbefore) hstop
    · exact stems_of_endReturn hbody fun hstop => ⟨_, _, _, .body hf hlength hargs, hstop⟩

theorem stems_of_call {f : Node} {args : List Node} (h : call settings room inner scope f args s = (.error why, s')) :
    Stems settings room inner scope (.call f args) s why s' := by
  refine stems_of_bind .callee h fun v s₁ hf hrest => ?_
  cases v with
  | builtin b =>
    rcases bind_eq_error.mp hrest with hargs | ⟨vs, s₂, hargs, hb⟩
    · obtain ⟨before, e, after, vs, s₂, rfl, hbefore, hstop⟩ := each_eq_error hargs
      exact .passed (.builtinArg hf hbefore) hstop
    · exact .raised (.builtin hf hargs hb)
  | fn params body captured => exact stems_of_callFunction hf hrest
  | _ =>
    obtain ⟨rfl, rfl⟩ := fail_eq_error hrest
    exact .raised (.notInvocable hf (by simp) (by simp))

theorem stems_of_index {t i : Node} (h : index inner scope t i s = (.error why, s')) :
    Stems settings room inner scope (.index t i) s why s' := by
  refine stems_of_bind .target h fun v s₁ ht hrest => ?_
  cases v with
  | arr id => exact stems_of_bind (.arrayPosition ht) hrest fun v s₂ hi hitem => .raised (.arrayItem ht hi hitem)
  | str id =>
    rcases bind_eq_error.mp hrest with htext | ⟨cs, s₂, htext, hrest⟩
    · obtain ⟨hcs, rfl, rfl⟩ := text_eq_error.mp htext
      exact .raised (.noText ht hcs)
    · obtain ⟨hcs, rfl⟩ := text_eq_ok.mp htext
      exact stems_of_bind (.stringPosition ht hcs) hrest fun v s₂ hi hitem => .raised (.stringItem ht hcs hi hitem)
  | _ =>
    obtain ⟨rfl, rfl⟩ := fail_eq_error hrest
    exact .raised (.notIndexable ht (by simp) (by simp))

theorem stems_of_ifThen {c y : Node} (h : ifThen inner scope c y s = (.error why, s')) :
    Stems settings room inner scope (.ifThen c y) s why s' := by
  refine stems_of_bind .ifThenCondition h fun v s₁ hc hrest => ?_
  rcases bind_eq_error.mp hrest with hv | ⟨b, s₂, htruth, hrest⟩
  · exact .raised (.ifThen hc hv)
  · obtain ⟨rfl, rfl⟩ := truth_eq_ok.mp htruth
    cases b with
    | true => exact .passed (.ifThenYes hc) hrest
    | false => cases hrest

theorem stems_of_ifElse {c y e : Node} (h : ifElse inner scope c y e s = (.error why, s')) :
    Stems settings room inner scope (.ifElse c y e) s why s' := by
  refine stems_of_bind .ifElseCondition h fun v s₁ hc hrest => ?_
  rcases bind_eq_error.mp hrest with hv | ⟨b, s₂, htruth, hrest⟩
  · exact .raised (.ifElse hc hv)
  · obtain ⟨rfl, rfl⟩ := truth_eq_ok.mp htruth
    cases b with
    | true => exact .passed (.ifElseYes hc) hrest
    | false => exact .passed (.ifElseNo hc) hrest

/-- What stops a node stopped a part of it or is raised by the node. -/
theorem stems_of_node (h : node settings room inner scope n s = (.error why, s')) :
    Stems settings room inner scope n s why s' := by
  cases n with
  | program body =>
    refine stems_of_endReturn h fun hstop => ?_
    obtain ⟨before, e, after, v, s₁, rfl, hbefore, hstop⟩ := inOrder_eq_error hstop
    exact ⟨scope, e, s₁, .programStmt hbefore, hstop⟩
  | block body =>
    obtain ⟨before, e, after, v, s₁, rfl, hbefore, hstop⟩ := inOrder_eq_error h
    exact .passed (.blockStmt hbefore) hstop
  | letStmt x e => exact stems_of_letStmt h
  | returnStmt e =>
    refine stems_of_bind .returnStmt h fun v s₁ he hrest => ?_
    obtain ⟨hwhy, rfl⟩ := Prod.mk.inj hrest
    obtain rfl := Except.error.inj hwhy
    exact .raised (.returned he)
  | exprStmt e => exact .passed .exprStmt h
  | whileStmt c b => exact stems_of_whileStmt h
  | ident x =>
    cases hx : Builtin.ofName? x with
    | some b => simp [node, ident, hx, pure] at h
    | none =>
      simp only [node, ident, hx] at h
      exact .raised (.ident h)
  | prefixOp op e =>
    refine stems_of_bind .prefixOp h fun v s₁ he hrest => ?_
    obtain ⟨err, hop, rfl, rfl⟩ := ofExcept_eq_error hrest
    exact .raised (.prefixOp he hop)
  | infixOp op l r =>
    refine stems_of_bind .left h fun v s₁ hl hrest => stems_of_bind (.right hl) hrest fun w s₂ hr hrest => ?_
    obtain ⟨err, hop, rfl, rfl⟩ := ofExcept_eq_error hrest
    exact .raised (.infixOp hl hr hop)
  | postfixOp op e => exact .raised (.postfixOp h)
  | ifThen c y => exact stems_of_ifThen h
  | ifElse c y e => exact stems_of_ifElse h
  | call f args => exact stems_of_call h
  | array es =>
    rcases bind_eq_error.mp h with hes | ⟨vs, s₁, -, hdone⟩
    · obtain ⟨before, e, after, vs, s₁, rfl, hbefore, hstop⟩ := each_eq_error hes
      exact .passed (.element hbefore) hstop
    · cases hdone
  | index t i => exact stems_of_index h
  | token t =>
    obtain ⟨rfl, rfl⟩ := fail_eq_error h
    exact .raised .token
  | int n => cases h
  | bool b => cases h
  | str x => cases h
  | fn params body => cases h

end

namespace Visit
variable {settings : Settings} {v : Visit} {why : Stop} {s : State}

inductive Raises (settings : Settings) : Visit → Stop → State → Prop
  | tooDeep {frames scope n s} (hfull : ¬Fits settings frames n) : Raises settings ⟨frames, scope, n, s⟩ .tooDeep s
  | byNode {frames scope n s why s'} (hfits : Fits settings frames n)
      (h : Eval.Raises settings (roomFor settings frames n) (inside settings frames n) scope n s why s') :
      Raises settings ⟨frames, scope, n, s⟩ why s'

/-- Every stop was raised somewhere on the way, and nothing has changed since. -/
theorem exists_raises (h : v.outcome settings = (.error why, s)) :
    ∃ w, ReflTransGen (Enters settings) v w ∧ w.Raises settings why s := by
  obtain ⟨frames, scope, n, start⟩ := v
  induction frames, scope, n using eval.induct settings generalizing start s why with
  | case1 frames scope n hfits ih =>
    cases stems_of_node ((congrFun (eval_of_fits hfits) start).symm.trans h) with
    | passed hpart hstop =>
      obtain ⟨w, hw, hraises⟩ := ih _ _ _ hstop
      exact ⟨w, .head (.inl (.part hfits hpart)) hw, hraises⟩
    | caught hpart hstop _ =>
      obtain ⟨w, hw, hraises⟩ := ih _ _ _ hstop
      exact ⟨w, .head (.inr (.part hfits hpart)) hw, hraises⟩
    | raised hraises => exact ⟨_, .refl, .byNode hfits hraises⟩
  | case2 frames scope n hfull =>
    obtain ⟨hwhy, rfl⟩ := Prod.mk.inj ((congrFun (eval_of_not_fits hfull) start).symm.trans h)
    obtain rfl := Except.error.inj hwhy
    exact ⟨_, .refl, .tooDeep hfull⟩

end Visit

end Eval
end Scriptlet
