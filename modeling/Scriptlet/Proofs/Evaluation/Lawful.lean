import Scriptlet.Proofs.Evaluation.Law

/-! Evaluations keep closed laws: the builtin functions do, a node does if its parts do, and so every evaluation
does. -/
namespace Scriptlet

def Builtin.Holder.Current (s : State) : Holder → Prop
  | .text id t => s.texts[id]? = some t.toList
  | .array id vs => s.arrays[id]? = some vs

def Builtin.Holder.value : Holder → Value
  | .text id _ => .str id
  | .array id _ => .arr id

def Builtin.Holder.size : Holder → Nat
  | .text _ t => t.length
  | .array _ vs => vs.length

def EvalError.isRefusal : EvalError → Bool
  | arity _ _ | notSequence _ _ => true
  | _ => false

namespace Law
open Run

/-- What a builtin function may give: a refusal or a value that the law allows. -/
def Gives (L : Law) (s : State) (v : Value) : Prop := (∃ e, e.isRefusal ∧ v = .error e) ∨ L.Allows s v

section
open Builtin
variable {L : Law} {E : ScopeId} {s : State} {holder : Holder} {v : Value} {args : List Value} {onEmpty : OnEmpty}
  {settings : Settings} {stack : Stack} {room : Nat}

theorem Keeps.gives {outcome : Except Stop Value × State} (h : L.Keeps E L.Allows s outcome) :
    L.Keeps E L.Gives s outcome := h.mono fun _ _ _ => .inr

variable (hL : L.Sound)
include hL

theorem keeps_error {e : EvalError} (h : L.Holds s) (he : e.isRefusal) :
    L.Keeps E L.Gives s ((pure (.error e) : Run Value) s) := keeps_pure hL h (.inl ⟨e, he, rfl⟩)

theorem keeps_value (h : L.Holds s) (hv : L.Allows s v) : L.Keeps E L.Gives s ((pure v : Run Value) s) :=
  keeps_pure hL h (.inr hv)

theorem keeps_newText {cs : List Char} (h : L.Holds s) : L.Keeps E L.Allows s (newText cs s) := by
  have hadd := hL.addText E cs h
  rw [State.size_texts] at hadd
  exact hadd

theorem keeps_newString {t : String} (h : L.Holds s) : L.Keeps E L.Allows s (newString t s) := by
  rw [newString_eq_newText]
  exact keeps_newText hL h

theorem keeps_newArray {vs : List Value} (h : L.Holds s) (hvs : ∀ v ∈ vs, L.Allows s v) :
    L.Keeps E L.Gives s (newArray vs s) := by
  obtain ⟨hnext, hv⟩ := hL.addArray E h hvs
  exact ⟨hnext, .inr hv⟩

theorem keeps_onSequence {which : String} {go : Holder → Run Value} (h : L.Holds s) (hv : L.Allows s v)
    (hgo : ∀ holder, holder.Current s → L.Allows s holder.value → L.Keeps E L.Gives s (go holder s)) :
    L.Keeps E L.Gives s (onSequence which v go s) := by
  cases v with
  | str id =>
    refine keeps_bind hL (keeps_find hL h) fun t s' hstring _ _ => ?_
    obtain ⟨ht, rfl⟩ := string_eq_ok.mp hstring
    exact hgo (.text id t) ht hv
  | arr id =>
    refine keeps_bind hL (keeps_find hL h) fun vs s' harray _ hvs => ?_
    obtain ⟨-, rfl⟩ := find_eq_ok.mp harray
    exact hgo (.array id vs) hvs hv
  | _ => exact keeps_error hL h rfl

theorem keeps_one {go : Value → Run Value} (h : L.Holds s) (hargs : ∀ v ∈ args, L.Allows s v)
    (hgo : ∀ v, L.Allows s v → L.Keeps E L.Gives s (go v s)) : L.Keeps E L.Gives s (one args go s) := by
  unfold one
  split
  · next v => exact hgo v (hargs v (by simp))
  · exact keeps_error hL h rfl

theorem keeps_two {go : Value → Value → Run Value} (h : L.Holds s) (hargs : ∀ v ∈ args, L.Allows s v)
    (hgo : ∀ v w, L.Allows s v → L.Allows s w → L.Keeps E L.Gives s (go v w s)) :
    L.Keeps E L.Gives s (two args go s) := by
  unfold two
  split
  · next v w => exact hgo v w (hargs v (by simp)) (hargs w (by simp))
  · exact keeps_error hL h rfl

theorem keeps_textOf (h : L.Holds s) : L.Keeps E (fun _ _ => True) s (textOf stack room v s) := by
  refine keeps_bind hL (keeps_find hL h) fun frames s₁ _ hnext₁ _ => ?_
  refine keeps_bind hL (keeps_find hL hnext₁.1) fun t s₂ _ hnext₂ _ => ?_
  exact keeps_makeText hL hnext₂.1

theorem keeps_plainText (h : L.Holds s) : L.Keeps E (fun _ _ => True) s (plainText stack room v s) := by
  unfold plainText
  split
  · exact (keeps_find hL h).mono fun _ _ _ _ => trivial
  · exact keeps_textOf hL h

theorem keeps_printAll (h : L.Holds s) : L.Keeps E L.Gives s (printAll stack room args s) := by
  induction args generalizing s with
  | nil => exact keeps_value hL h (hL.null s)
  | cons v args ih =>
    have hline : L.Keeps E (fun _ _ => True) s (printLine stack room v s) := by
      refine keeps_bind hL (keeps_textOf hL h) fun line s' _ hnext _ => ?_
      exact ⟨hL.print E line hnext.1, trivial⟩
    exact keeps_bind hL hline fun _ s' _ hnext _ => ih hnext.1

theorem keeps_ofEmpty {fresh : Run Value} (h : L.Holds s) (hfresh : L.Keeps E L.Gives s (fresh s)) :
    L.Keeps E L.Gives s (ofEmpty onEmpty fresh s) := by
  cases onEmpty with
  | null => exact keeps_value hL h (hL.null s)
  | empty => exact hfresh

theorem keeps_firstOf (h : L.Holds s) (hholder : holder.Current s) (hallows : L.Allows s holder.value) :
    L.Keeps E L.Gives s (firstOf onEmpty holder s) := by
  unfold firstOf
  split
  · next id t =>
    cases t.toList with
    | cons c cs => exact (keeps_newText hL h).gives
    | nil => exact keeps_ofEmpty hL h (keeps_newText hL h).gives
  · exact keeps_value hL h (hL.element h hallows hholder List.mem_cons_self)
  · exact keeps_ofEmpty hL h (keeps_newArray hL h (by simp))

theorem keeps_restOf (h : L.Holds s) (hholder : holder.Current s) (hallows : L.Allows s holder.value) :
    L.Keeps E L.Gives s (restOf onEmpty holder s) := by
  unfold restOf
  split
  · next id t =>
    cases t.toList with
    | cons c cs => exact (keeps_newText hL h).gives
    | nil => exact keeps_ofEmpty hL h (keeps_newText hL h).gives
  · exact keeps_newArray hL h fun v hv => hL.element h hallows hholder (List.mem_cons_of_mem _ hv)
  · exact keeps_ofEmpty hL h (keeps_newArray hL h (by simp))

theorem keeps_pushOn (h : L.Holds s) (hv : L.Allows s v) (hholder : holder.Current s)
    (hallows : L.Allows s holder.value) :
    L.Keeps E L.Gives s (pushOn stack room v holder s) := by
  cases holder with
  | text id t => exact keeps_bind hL (keeps_plainText hL h) fun _ _ _ hnext _ => (keeps_newString hL hnext.1).gives
  | array id vs =>
    refine keeps_newArray hL h fun u hu => ?_
    rcases List.mem_cons.mp hu with rfl | hu
    · exact hv
    · exact hL.element h hallows hholder hu

theorem keeps_appendTo (h : L.Holds s) (hv : L.Allows s v) (hholder : holder.Current s)
    (hallows : L.Allows s holder.value) :
    L.Keeps E L.Gives s (appendTo stack room v holder s) := by
  cases holder with
  | text id t => exact keeps_bind hL (keeps_plainText hL h) fun _ _ _ hnext _ => (keeps_newString hL hnext.1).gives
  | array id vs =>
    refine keeps_newArray hL h fun u hu => ?_
    rcases List.mem_append.mp hu with hu | hu
    · exact hL.element h hallows hholder hu
    · exact List.mem_singleton.mp hu ▸ hv

theorem keeps_setText {id : TextId} {cs cs' new : List Char} (h : L.Holds s) (hcs : s.texts[id]? = some cs)
    (hpart : cs' <:+: cs) :
    L.Keeps E L.Gives s ((do change (·.setText id cs'); newText new : Run Value) s) := by
  have hnext := hL.setText E h hcs hpart
  exact (keeps_newText hL hnext.1).gives.after hL hnext

theorem keeps_setArray {id : ArrayId} {vs vs' : List Value} (h : L.Holds s) (hvs : s.arrays[id]? = some vs)
    (hid : L.Allows s (.arr id)) (hpart : vs' <:+: vs) (hv : v ∈ vs) :
    L.Keeps E L.Gives s ((do change (·.setArray id vs'); return v : Run Value) s) := by
  have hnext := hL.setArray E h hvs hpart
  have hallows := hL.allows_mono hnext.2 (hL.element h hid hvs hv)
  exact (keeps_value hL hnext.1 hallows).after hL hnext

theorem keeps_popFrom (h : L.Holds s) (hholder : holder.Current s) (hallows : L.Allows s holder.value) :
    L.Keeps E L.Gives s (popFrom holder s) := by
  unfold popFrom
  split
  · next id t =>
    cases ht : t.toList with
    | cons c cs =>
      have hpart : cs <:+: t.toList := ht ▸ (List.suffix_cons c cs).isInfix
      exact keeps_setText hL h hholder hpart
    | nil => exact keeps_value hL h (hL.null s)
  · exact keeps_setArray hL h hholder hallows (List.suffix_cons _ _).isInfix List.mem_cons_self
  · exact keeps_value hL h (hL.null s)

theorem keeps_removeLastFrom (h : L.Holds s) (hholder : holder.Current s) (hallows : L.Allows s holder.value) :
    L.Keeps E L.Gives s (removeLastFrom holder s) := by
  cases holder with
  | text id t =>
    cases hlast : t.toList.getLast? with
    | some c =>
      simp only [removeLastFrom, hlast]
      exact keeps_setText hL h hholder (List.dropLast_prefix t.toList).isInfix
    | none =>
      simp only [removeLastFrom, hlast]
      exact keeps_value hL h (hL.null s)
  | array id vs =>
    cases hlast : vs.getLast? with
    | some v =>
      simp only [removeLastFrom, hlast]
      exact keeps_setArray hL h hholder hallows (List.dropLast_prefix vs).isInfix (List.mem_of_getLast? hlast)
    | none =>
      simp only [removeLastFrom, hlast]
      exact keeps_value hL h (hL.null s)

/-- The length of a sequence is the one result of a builtin function that is made and not found. -/
theorem keeps_len (h : L.Holds s)
    (hsize : ∀ holder : Holder, holder.Current s → args = [holder.value] → L.Allows s (.int holder.size)) :
    L.Keeps E L.Gives s (Builtin.len.call settings room args s) := by
  simp only [Builtin.call, one]
  split
  · next v =>
    cases v with
    | str id =>
      refine keeps_bind hL (keeps_find hL h) fun t s' hstring _ _ => ?_
      obtain ⟨ht, rfl⟩ := string_eq_ok.mp hstring
      exact keeps_value hL h (hsize (.text id t) ht rfl)
    | arr id =>
      refine keeps_bind hL (keeps_find hL h) fun vs s' harray _ hvs => ?_
      obtain ⟨-, rfl⟩ := find_eq_ok.mp harray
      exact keeps_value hL h (hsize (.array id vs) hvs rfl)
    | _ => exact keeps_error hL h rfl
  · exact keeps_error hL h rfl

theorem keeps_builtin_of_ne_len {b : Builtin} (hb : b ≠ .len) (h : L.Holds s) (hargs : ∀ v ∈ args, L.Allows s v) :
    L.Keeps E L.Gives s (b.call settings room args s) := by
  cases b with
  | print =>
    unfold Builtin.call
    split
    · exact keeps_error hL h rfl
    · exact keeps_printAll hL h
  | len => exact absurd rfl hb
  | first => exact keeps_one hL h hargs fun v hv => keeps_onSequence hL h hv fun _ => keeps_firstOf hL h
  | rest => exact keeps_one hL h hargs fun v hv => keeps_onSequence hL h hv fun _ => keeps_restOf hL h
  | push => exact keeps_two hL h hargs fun v w hv hw => keeps_onSequence hL h hv fun _ => keeps_pushOn hL h hw
  | append => exact keeps_two hL h hargs fun v w hv hw => keeps_onSequence hL h hv fun _ => keeps_appendTo hL h hw
  | pop => exact keeps_one hL h hargs fun v hv => keeps_onSequence hL h hv fun _ => keeps_popFrom hL h
  | removeLast => exact keeps_one hL h hargs fun v hv => keeps_onSequence hL h hv fun _ => keeps_removeLastFrom hL h

omit hL in
theorem keeps_builtin (hL : L.Closed) {b : Builtin} (h : L.Holds s) (hargs : ∀ v ∈ args, L.Allows s v) :
    L.Keeps E L.Gives s (b.call settings room args s) := by
  by_cases hb : b = .len
  · subst hb
    refine keeps_len hL h fun holder hholder _ => ?_
    cases holder with
    | text id t =>
      rw [Holder.size, ← String.length_toList]
      exact hL.textLength h hholder
    | array id vs => exact hL.arrayLength h hholder
  · exact keeps_builtin_of_ne_len hL hb h hargs

end

section
open Eval
variable {L : Law} {settings : Settings} {room : Nat} {inner : ScopeId → Node → Run Value} {E : ScopeId} {n : Node}
  {s : State}

/-- The builtin function that a node calls, if it calls one, keeps to the law. -/
def Serves (L : Law) (settings : Settings) (room : Nat) (inner : ScopeId → Node → Run Value) (E : ScopeId) (n : Node)
    (s : State) : Prop :=
  ∀ f es b vs s₁ s₂, n = .call f es → inner E f s = (.ok (.builtin b), s₁) → each (inner E) es s₁ = (.ok vs, s₂) →
    L.Holds s₂ → (∀ v ∈ vs, L.Allows s₂ v) → L.Keeps E L.Gives s₂ (b.call settings room vs s₂)

theorem serves_of_closed (hL : L.Closed) : L.Serves settings room inner E n s :=
  fun _ _ _ _ _ _ _ _ _ h hargs => keeps_builtin hL h hargs

variable (hL : L.Sound)
include hL

theorem keeps_select {kind : SequenceKind} {α : Type} {items : List α} {position : Int} (h : L.Holds s) :
    L.Keeps E (fun _ a => a ∈ items) s (select kind items position s) := by
  unfold select itemAt
  split
  · exact keeps_fail hL h
  · split
    · split
      · exact keeps_fail hL h
      · exact (keeps_find hL h).mono fun a _ _ ha => List.mem_reverse.mp (List.mem_of_getElem? ha)
    · exact (keeps_find hL h).mono fun a _ _ ha => List.mem_of_getElem? ha

theorem keeps_truth {blame : ValueType → EvalError} {v : Value} (h : L.Holds s) :
    L.Keeps E (fun _ _ => True) s (truth blame v s) := by
  cases v with
  | bool b => exact keeps_pure hL h trivial
  | _ => exact keeps_fail hL h

theorem keeps_asPosition {v : Value} (h : L.Holds s) : L.Keeps E (fun _ _ => True) s (asPosition v s) := by
  cases v with
  | int n => exact keeps_pure hL h trivial
  | _ => exact keeps_fail hL h

theorem keeps_applyPrefix {op : Operator} {v : Value} (h : L.Holds s) :
    L.Keeps E L.Allows s (ofExcept (op.applyPrefix v) s) := by
  unfold Operator.applyPrefix
  split
  · exact keeps_pure hL h (hL.wrap s _)
  · exact keeps_pure hL h (hL.bool s _)
  all_goals exact keeps_fail hL h

theorem keeps_applyInts {op : Operator} {a b : Int} (h : L.Holds s) :
    L.Keeps E L.Allows s (ofExcept (op.applyInts a b) s) := by
  cases op with
  | lt | gt | eq | neq | lteq | gteq => exact keeps_pure hL h (hL.bool s _)
  | plus | minus | asterisk => exact keeps_pure hL h (hL.wrap s _)
  | slash =>
    by_cases hb : b = 0
    · simp only [Operator.applyInts, hb, if_true]
      exact keeps_fail hL h
    · simp only [Operator.applyInts, hb, if_false]
      exact keeps_pure hL h (hL.wrap s _)
  | _ => exact keeps_fail hL h

theorem keeps_applyInfix {op : Operator} {v w : Value} (h : L.Holds s) :
    L.Keeps E L.Allows s (ofExcept (op.applyInfix v w) s) := by
  unfold Operator.applyInfix
  split
  · exact keeps_applyInts hL h
  · cases op with
    | eq | neq => exact keeps_pure hL h (hL.bool s _)
    | _ => exact keeps_fail hL h
  · exact keeps_fail hL h

theorem keeps_bindName {name : String} {v : Value} (h : L.Ready E s) (hv : L.Allows s v)
    (hname : Builtin.ofName? name = none ∨ ∃ n, s.lookup E name = .int n) :
    L.Keeps E (fun _ _ => True) s (bindName E name v s) := by
  refine keeps_bind hL (keeps_find hL h.holds) fun scope s' hfind _ hscope => ?_
  obtain ⟨-, rfl⟩ := find_eq_ok.mp hfind
  exact ⟨hL.bind h.holds h.knows hscope hv hname, trivial⟩

theorem allows_lookup {name : String} (h : L.Ready E s) : L.Allows s (s.lookup E name) := by
  unfold State.lookup
  cases hfind : s.find? E name with
  | none => exact hL.null s
  | some v => exact hL.find h.holds h.knows hfind

theorem keeps_ident {name : String} (h : L.Ready E s) : L.Keeps E L.Allows s (ident E name s) := by
  cases hname : Builtin.ofName? name with
  | some b =>
    simp only [ident, hname]
    exact keeps_pure hL h.holds (hL.builtin s b)
  | none =>
    simp only [ident, hname]
    exact keeps_use hL h.holds (allows_lookup hL h)

theorem keeps_blame {operand : Node} {e : EvalError} (h : L.Holds s) :
    L.Keeps E L.Allows s (blame settings room operand e s) :=
  keeps_bind hL (keeps_makeText hL h) fun _ _ _ hnext _ => keeps_fail hL hnext.1

theorem keeps_postfixOp {op : Operator} {operand : Node} (h : L.Ready E s) :
    L.Keeps E L.Allows s (postfixOp settings room E op operand s) := by
  cases hstep : op.postfixStep? with
  | none =>
    simp only [postfixOp, hstep]
    exact keeps_blame hL h.holds
  | some step =>
    simp only [postfixOp, hstep]
    cases operand with
    | ident name =>
      have hlook : look (·.lookup E name) s = (.ok (s.lookup E name), s) := rfl
      simp only
      rw [bind_of_ok hlook]
      cases hv : s.lookup E name with
      | int n =>
        refine keeps_bind hL (keeps_bindName hL h (hL.wrap s _) (.inr ⟨n, hv⟩)) fun _ s' _ hnext _ => ?_
        exact keeps_pure hL hnext.1 (hL.null s')
      | _ => exact keeps_fail hL h.holds
    | _ => exact keeps_blame hL h.holds

variable (hinner : L.Obeys inner)
include hinner

theorem keeps_nodes {es : List Node} (h : L.Ready E s) (hes : ∀ e ∈ es, L.Admits e) :
    L.Keeps E (fun s' vs => ∀ v ∈ vs, L.Allows s' v) s (each (inner E) es s) :=
  keeps_each hL (fun e he s hs => hinner E e s hs (hes e he)) h

theorem keeps_letStmt {x : String} {e : Node} (h : L.Ready E s) (he : L.Admits e) :
    L.Keeps E L.Allows s (letStmt inner E x e s) := by
  refine keeps_bind hL (hinner E e s h he) fun v s' _ hnext hv => ?_
  split
  · exact keeps_fail hL hnext.1
  · next hname =>
    have hname := Option.not_isSome_iff_eq_none.mp hname
    refine keeps_bind hL (keeps_bindName hL (h.next hL hnext) hv (.inl hname)) fun _ s'' _ hnext' _ => ?_
    exact keeps_pure hL hnext'.1 (hL.null s'')

theorem keeps_condition {blame : ValueType → EvalError} {c : Node} (hc : L.Admits c) (s : State) (h : L.Ready E s) :
    L.Keeps E (fun _ _ => True) s ((do truth blame (← inner E c)) s) :=
  keeps_bind hL (hinner E c s h hc) fun _ _ _ hnext _ => keeps_truth hL hnext.1

theorem keeps_callFunction {params : List String} {body : Node} {captured : ScopeId} {args : List Node}
    (h : L.Ready E s) (hargs : ∀ arg ∈ args, L.Admits arg) (hfn : L.Allows s (.fn params body captured)) :
    L.Keeps E L.Allows s (callFunction inner E params body captured args s) := by
  unfold callFunction
  split
  · exact keeps_fail hL h.holds
  · next hlength =>
    refine keeps_bind hL (keeps_nodes hL hinner h hargs) fun vs s' hvs hnext hallows => ?_
    have hfn := hL.allows_mono hnext.2 hfn
    have hparams : params.length = vs.length := (Decidable.not_not.mp hlength).trans (length_of_each hvs).symm
    obtain ⟨hready, hleads⟩ := hL.enter (E := E) hnext.1 hfn hallows hparams
    -- The body runs in the new scope, which is what `enter` leads back from.
    have hbody := keeps_endReturn hL (hinner _ body _ hready (hL.body hfn))
    exact hbody.transfer hleads

theorem keeps_call {f : Node} {args : List Node} (hserves : L.Serves settings room inner E (.call f args) s)
    (h : L.Ready E s) (hf : L.Admits f) (hargs : ∀ arg ∈ args, L.Admits arg) :
    L.Keeps E L.Allows s (call settings room inner E f args s) := by
  refine keeps_bind hL (hinner E f s h hf) fun v s₁ hcallee hnext hv => ?_
  have h₁ := h.next hL hnext
  cases v with
  | builtin b =>
    refine keeps_bind hL (keeps_nodes hL hinner h₁ hargs) fun vs s₂ hvalues hnext₂ hvs => ?_
    have hbuiltin := hserves f args b vs s₁ s₂ rfl hcallee hvalues hnext₂.1 hvs
    refine keeps_bind hL hbuiltin fun v s₃ _ hnext₃ hv => ?_
    rcases hv with ⟨e, -, rfl⟩ | hv
    · exact keeps_fail hL hnext₃.1
    · exact keeps_use hL hnext₃.1 hv
  | fn params body captured => exact keeps_callFunction hL hinner h₁ hargs hv
  | _ => exact keeps_fail hL hnext.1

theorem keeps_index {t i : Node} (h : L.Ready E s) (ht : L.Admits t) (hi : L.Admits i) :
    L.Keeps E L.Allows s (index inner E t i s) := by
  refine keeps_bind hL (hinner E t s h ht) fun v s₁ _ hnext hallows => ?_
  have h₁ := h.next hL hnext
  cases v with
  | arr id =>
    refine keeps_bind hL (hinner E i s₁ h₁ hi) fun u s₂ _ hnext₂ _ => ?_
    refine keeps_bind hL (keeps_asPosition hL hnext₂.1) fun n s₃ _ hnext₃ _ => ?_
    refine keeps_bind hL (keeps_find hL hnext₃.1) fun vs s₄ _ hnext₄ hvs => ?_
    refine keeps_bind hL (keeps_select hL hnext₄.1) fun v s₅ _ hnext₅ hv => ?_
    have hid := hL.allows_mono hnext₄.2 (hL.allows_mono hnext₃.2 (hL.allows_mono hnext₂.2 hallows))
    exact keeps_use hL hnext₅.1 (hL.allows_mono hnext₅.2 (hL.element hnext₄.1 hid hvs hv))
  | str id =>
    refine keeps_bind hL (keeps_find hL hnext.1) fun cs s₂ _ hnext₂ _ => ?_
    refine keeps_bind hL (hinner E i s₂ (h₁.next hL hnext₂) hi) fun u s₃ _ hnext₃ _ => ?_
    refine keeps_bind hL (keeps_asPosition hL hnext₃.1) fun n s₄ _ hnext₄ _ => ?_
    refine keeps_bind hL (keeps_select hL hnext₄.1) fun c s₅ _ hnext₅ _ => ?_
    exact keeps_newText hL hnext₅.1
  | _ => exact keeps_fail hL hnext.1

/-- A node keeps to a law if the nodes inside it do. -/
theorem keeps_node {n : Node} (hserves : L.Serves settings room inner E n s) (h : L.Ready E s) (hn : L.Admits n) :
    L.Keeps E L.Allows s (node settings room inner E n s) := by
  have hchild {c : Node} (hc : c ∈ n.children) : L.Admits c := hL.child hn hc
  have hpart {c : Node} (hc : c ∈ n.children) (s : State) (h : L.Ready E s) : L.Keeps E L.Allows s (inner E c s) :=
    hinner E c s h (hchild hc)
  cases n with
  | program body =>
    exact keeps_endReturn hL (keeps_inOrder hL (fun e hmem => hpart hmem) h (hL.null s))
  | block body => exact keeps_inOrder hL (fun e hmem => hpart hmem) h (hL.null s)
  | letStmt x e => exact keeps_letStmt hL hinner h (hchild (by simp [Node.children]))
  | returnStmt e =>
    refine keeps_bind hL (hpart (by simp [Node.children]) s h) fun v s' _ hnext hv => ?_
    exact ⟨Next.refl hL E hnext.1, hv⟩
  | exprStmt e => exact hpart (by simp [Node.children]) s h
  | whileStmt c e =>
    exact keeps_repeatWhile hL (keeps_condition hL hinner (hchild (by simp [Node.children])))
      (hpart (by simp [Node.children])) h
  | ident name => exact keeps_ident hL h
  | int n => exact keeps_pure hL h.holds (hL.int hn)
  | bool b => exact keeps_pure hL h.holds (hL.bool s b)
  | str t => exact keeps_newString hL h.holds
  | prefixOp op e =>
    refine keeps_bind hL (hpart (by simp [Node.children]) s h) fun v s' _ hnext _ => ?_
    exact keeps_applyPrefix hL hnext.1
  | infixOp op l r =>
    refine keeps_bind hL (hpart (by simp [Node.children]) s h) fun v s₁ _ hnext _ => ?_
    refine keeps_bind hL (hpart (by simp [Node.children]) s₁ (h.next hL hnext)) fun w s₂ _ hnext₂ _ => ?_
    exact keeps_applyInfix hL hnext₂.1
  | postfixOp op e => exact keeps_postfixOp hL h
  | ifThen c y =>
    refine keeps_bind hL (hpart (by simp [Node.children]) s h) fun v s₁ _ hnext _ => ?_
    refine keeps_bind hL (keeps_truth hL hnext.1) fun b s₂ _ hnext₂ _ => ?_
    have h₂ := (h.next hL hnext).next hL hnext₂
    cases b with
    | true => exact hpart (by simp [Node.children]) s₂ h₂
    | false => exact keeps_pure hL h₂.holds (hL.null s₂)
  | ifElse c y n =>
    refine keeps_bind hL (hpart (by simp [Node.children]) s h) fun v s₁ _ hnext _ => ?_
    refine keeps_bind hL (keeps_truth hL hnext.1) fun b s₂ _ hnext₂ _ => ?_
    have h₂ := (h.next hL hnext).next hL hnext₂
    cases b with
    | true => exact hpart (by simp [Node.children]) s₂ h₂
    | false => exact hpart (by simp [Node.children]) s₂ h₂
  | fn params body => exact keeps_pure hL h.holds (hL.fn hn h.knows)
  | call f args =>
    exact keeps_call hL hinner hserves h (hchild (by simp [Node.children])) fun arg hmem =>
      hchild (by simp [Node.children, hmem])
  | array elements =>
    refine keeps_bind hL (keeps_each hL (fun e hmem => hpart hmem) h) fun vs s' _ hnext hvs => ?_
    exact hL.addArray E hnext.1 hvs
  | index t i => exact keeps_index hL hinner h (hchild (by simp [Node.children])) (hchild (by simp [Node.children]))
  | token t => exact keeps_fail hL h.holds

theorem ready_of_ok {c : Node} {v : Value} {s' : State} (h : L.Ready E s) (hc : L.Admits c)
    (hv : inner E c s = (.ok v, s')) : L.Ready E s' :=
  h.next hL ((hinner E c s h hc).of_ok hv).1

theorem ready_of_each {before : List Node} {vs : List Value} {s' : State} (h : L.Ready E s)
    (hbefore : ∀ e ∈ before, L.Admits e) (hvs : each (inner E) before s = (.ok vs, s')) : L.Ready E s' :=
  h.next hL ((keeps_nodes hL hinner h hbefore).of_ok hvs).1

theorem ready_of_inOrder {before : List Node} {v : Value} {s' : State} (h : L.Ready E s)
    (hbefore : ∀ e ∈ before, L.Admits e) (hv : inOrder (inner E) .null before s = (.ok v, s')) : L.Ready E s' :=
  h.next hL ((keeps_inOrder hL (fun e hmem s hs => hinner E e s hs (hbefore e hmem)) h (hL.null s)).of_ok hv).1

theorem ready_of_rounds {c e : Node} {k : Nat} {s' : State} (h : L.Ready E s) (hc : L.Admits c) (he : L.Admits e)
    (hrounds : Rounds (do truth .whileCondition (← inner E c)) (inner E e) k s s') : L.Ready E s' :=
  h.next hL (next_rounds hL (keeps_condition hL hinner hc) (fun s hs => hinner E e s hs he) hrounds h)

theorem ready_of_passes {n' : Node} {s' : State} (h : L.Ready E s) (hn : L.Admits n)
    (hpasses : Passes settings inner E n s n' s') : L.Ready E s' ∧ L.Admits n' := by
  have hchild {c : Node} (hc : c ∈ n.children) : L.Admits c := hL.child hn hc
  cases hpasses with
  | letStmt | returnStmt | exprStmt | prefixOp | left | callee | target | ifThenCondition | ifElseCondition =>
    exact ⟨h, hchild (by simp [Node.children])⟩
  | right hl => exact ⟨ready_of_ok hL hinner h (hchild (by simp [Node.children])) hl, hchild (by simp [Node.children])⟩
  | element hbefore =>
    have h₁ := ready_of_each hL hinner h (fun e hmem => hchild (by simp [Node.children, hmem])) hbefore
    exact ⟨h₁, hchild (by simp [Node.children])⟩
  | builtinArg hf hbefore | functionArg hf _ hbefore =>
    have h₁ := ready_of_ok hL hinner h (hchild (by simp [Node.children])) hf
    have h₂ := ready_of_each hL hinner h₁ (fun e hmem => hchild (by simp [Node.children, hmem])) hbefore
    exact ⟨h₂, hchild (by simp [Node.children])⟩
  | arrayPosition ht | stringPosition ht _ =>
    exact ⟨ready_of_ok hL hinner h (hchild (by simp [Node.children])) ht, hchild (by simp [Node.children])⟩
  | ifThenYes hc | ifElseYes hc | ifElseNo hc =>
    exact ⟨ready_of_ok hL hinner h (hchild (by simp [Node.children])) hc, hchild (by simp [Node.children])⟩
  | whileCondition hrounds _ =>
    have hc : L.Admits n' := hchild (by simp [Node.children])
    exact ⟨ready_of_rounds hL hinner h hc (hchild (by simp [Node.children])) hrounds, hc⟩
  | @whileBody c _ _ _ s₁ _ hrounds _ hok =>
    have hc : L.Admits c := hchild (by simp [Node.children])
    have he : L.Admits n' := hchild (by simp [Node.children])
    exact ⟨ready_of_ok hL hinner (ready_of_rounds hL hinner h hc he hrounds) hc hok, he⟩
  | blockStmt hbefore =>
    have h₁ := ready_of_inOrder hL hinner h (fun e hmem => hchild (by simp [Node.children, hmem])) hbefore
    exact ⟨h₁, hchild (by simp [Node.children])⟩

theorem ready_of_catches {F : ScopeId} {n' : Node} {s' : State} (h : L.Ready E s) (hn : L.Admits n)
    (hcatches : Catches inner E n s F n' s') : L.Ready F s' ∧ L.Admits n' := by
  have hchild {c : Node} (hc : c ∈ n.children) : L.Admits c := hL.child hn hc
  cases hcatches with
  | programStmt hbefore =>
    have h₁ := ready_of_inOrder hL hinner h (fun e hmem => hchild (by simp [Node.children, hmem])) hbefore
    exact ⟨h₁, hchild (by simp [Node.children])⟩
  | @body f params body captured args vs s s₁ s' hf hlength hargs =>
    obtain ⟨hnext, hv⟩ := (hinner E f s h (hchild (by simp [Node.children]))).of_ok hf
    have hadmits (e : Node) (hmem : e ∈ args) : L.Admits e := hchild (by simp [Node.children, hmem])
    obtain ⟨hnext', hvs⟩ := (keeps_nodes hL hinner (h.next hL hnext) hadmits).of_ok hargs
    have hv' := hL.allows_mono hnext'.2 hv
    exact ⟨(hL.enter (E := E) hnext'.1 hv' hvs (hlength.trans (length_of_each hargs).symm)).1, hL.body hv⟩

end

section
open Eval
variable {L : Law} (hL : L.Closed) (settings : Settings)
include hL

/-- Every evaluation keeps to a closed law. -/
theorem keeps_eval (frames : Nat) {E : ScopeId} {n : Node} {s : State} (h : L.Ready E s) (hn : L.Admits n) :
    L.Keeps E L.Allows s (eval settings frames E n s) := by
  induction frames, E, n using eval.induct settings generalizing s with
  | case1 frames E n hfits ih =>
    rw [eval_of_fits hfits]
    exact keeps_node hL (fun F part _ => ih F part) (serves_of_closed hL) h hn
  | case2 frames E n hfull =>
    rw [eval_of_not_fits hfull]
    exact Next.refl hL E h.holds

theorem obeys_inside (frames : Nat) (n : Node) : L.Obeys (inside settings frames n) := fun _ _ _ h hn =>
  keeps_eval hL settings _ h hn

variable {settings}

/-- Whatever is evaluated on the way starts in accordance with the law. -/
theorem ready_of_enters {v w : Visit} (h : L.Ready v.scope v.state) (hn : L.Admits v.node)
    (henters : Relation.ReflTransGen (Visit.Enters settings) v w) : L.Ready w.scope w.state ∧ L.Admits w.node := by
  induction henters with
  | refl => exact ⟨h, hn⟩
  | tail _ hlast ih =>
    obtain ⟨h, hn⟩ := ih
    rcases hlast with ⟨⟨_, hpasses⟩⟩ | ⟨⟨_, hcatches⟩⟩
    · exact ready_of_passes hL (obeys_inside hL settings _ _) h hn hpasses
    · exact ready_of_catches hL (obeys_inside hL settings _ _) h hn hcatches

end

end Law
end Scriptlet
