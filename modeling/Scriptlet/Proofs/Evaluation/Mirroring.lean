import Scriptlet.Proofs.Evaluation.Visits

/-! Nodes under a change of state.  A veil changes a state in a way that strings, arrays and output do not show.  Builtin
functions never look behind one, and a node only does in its scope and in its parts. -/
namespace Scriptlet
namespace State

/-- A change of states that keeps strings, arrays and output, and may come before or after any change of those. -/
structure Veil (g : State → State) : Prop where
  strings (s : State) : (g s).strings = s.strings
  arrays (s : State) : (g s).arrays = s.arrays
  addString (s : State) (t : String) : (g s).addString t = g (s.addString t)
  addArray (s : State) (vs : List Value) : (g s).addArray vs = g (s.addArray vs)
  setText (s : State) (id : TextId) (cs : List Char) : (g s).setText id cs = g (s.setText id cs)
  setArray (s : State) (id : ArrayId) (vs : List Value) : (g s).setArray id vs = g (s.setArray id vs)
  print (s : State) (line : String) : (g s).print line = g (s.print line)

variable {g : State → State} (hg : Veil g)
include hg

theorem Veil.strText?_eq (s : State) : (g s).strText? = s.strText? := by
  funext id
  rw [strText?, strText?, hg.strings]

theorem Veil.arrText?_eq (s : State) (bound : Nat) : (g s).arrText? bound = s.arrText? bound := by
  induction bound with
  | zero => rfl
  | succ bound ih =>
    funext id
    rw [arrText?, arrText?, ih, hg.strText?_eq, hg.arrays]

theorem Veil.text?_eq (s : State) (v : Value) : (g s).text? v = s.text? v := by
  rw [text?, text?, hg.arrText?_eq, hg.strText?_eq, hg.arrays]

end State

open State Run

namespace Builtin
variable {g : State → State} {s : State} {args : List Value}

theorem mirrors_ofEmpty {onEmpty : OnEmpty} {fresh : Run Value} (hfresh : Mirrors g fresh fresh s) :
    Mirrors g (ofEmpty onEmpty fresh) (ofEmpty onEmpty fresh) s := by
  cases onEmpty with
  | empty => exact hfresh
  | null => rfl

theorem mirrors_one {go : Value → Run Value} (hgo : ∀ v, Mirrors g (go v) (go v) s) :
    Mirrors g (one args go) (one args go) s := by
  unfold one
  split
  · exact hgo _
  · rfl

theorem mirrors_two {go : Value → Value → Run Value}
    (hgo : ∀ v w, Mirrors g (go v w) (go v w) s) : Mirrors g (two args go) (two args go) s := by
  unfold two
  split
  · exact hgo _ _
  · rfl

end Builtin

section
variable {g : State → State} {s : State} {stack : Stack} {room : Nat} (hg : Veil g)
include hg

namespace Run

theorem mirrors_newString (t : String) : Mirrors g (newString t) (newString t) s := by
  simp only [Mirrors, newString, hg.strings, hg.addString]

theorem mirrors_newText (cs : List Char) : Mirrors g (newText cs) (newText cs) s := mirrors_newString hg _

theorem mirrors_newArray (vs : List Value) : Mirrors g (newArray vs) (newArray vs) s := by
  simp only [Mirrors, newArray, hg.arrays, hg.addArray]

theorem mirrors_string (id : TextId) : Mirrors g (string id) (string id) s := mirrors_find (by rw [hg.strings])

theorem mirrors_text (id : TextId) : Mirrors g (text id) (text id) s := mirrors_find (by rw [hg.strings])

theorem mirrors_array (id : ArrayId) : Mirrors g (array id) (array id) s := mirrors_find (by rw [hg.arrays])

theorem mirrors_textOf (v : Value) : Mirrors g (textOf stack room v) (textOf stack room v) s :=
  mirrors_bind (mirrors_find (frames?_eq_of_arrays_eq (hg.arrays s) stack v)) fun _ s' _ =>
    mirrors_bind (mirrors_find (hg.text?_eq s' v)) fun _ _ _ => mirrors_makeText

end Run

namespace Builtin

theorem mirrors_onSequence {which : String} {v : Value} {go : Holder → Run Value}
    (hgo : ∀ holder s, Mirrors g (go holder) (go holder) s) :
    Mirrors g (onSequence which v go) (onSequence which v go) s := by
  cases v with
  | str id => exact mirrors_bind (mirrors_string hg id) fun t s' _ => hgo (.text id t) s'
  | arr id => exact mirrors_bind (mirrors_array hg id) fun vs s' _ => hgo (.array id vs) s'
  | _ => rfl

theorem mirrors_plainText (v : Value) : Mirrors g (plainText stack room v) (plainText stack room v) s := by
  unfold plainText
  split
  · exact mirrors_string hg _
  · exact mirrors_textOf hg _

theorem mirrors_printAll (vs : List Value) :
    Mirrors g (printAll stack room vs) (printAll stack room vs) s := by
  induction vs generalizing s with
  | nil => rfl
  | cons v vs ih =>
    have hline : Mirrors g (printLine stack room v) (printLine stack room v) s :=
      mirrors_bind (mirrors_textOf hg v) fun line s' _ => mirrors_change (hg.print s' line)
    exact mirrors_bind hline fun _ _ _ => ih

theorem mirrors_firstOf (onEmpty : OnEmpty) (holder : Holder) (s : State) :
    Mirrors g (firstOf onEmpty holder) (firstOf onEmpty holder) s := by
  unfold firstOf
  split
  · split
    · exact mirrors_newText hg _
    · exact mirrors_ofEmpty (mirrors_newText hg [])
  · rfl
  · exact mirrors_ofEmpty (mirrors_newArray hg [])

theorem mirrors_restOf (onEmpty : OnEmpty) (holder : Holder) (s : State) :
    Mirrors g (restOf onEmpty holder) (restOf onEmpty holder) s := by
  unfold restOf
  split
  · split
    · exact mirrors_newText hg _
    · exact mirrors_ofEmpty (mirrors_newText hg [])
  · exact mirrors_newArray hg _
  · exact mirrors_ofEmpty (mirrors_newArray hg [])

theorem mirrors_pushOn (v : Value) (holder : Holder) (s : State) :
    Mirrors g (pushOn stack room v holder) (pushOn stack room v holder) s := by
  cases holder with
  | text id t => exact mirrors_bind (mirrors_plainText hg v) fun _ _ _ => mirrors_newString hg _
  | array id vs => exact mirrors_newArray hg _

theorem mirrors_appendTo (v : Value) (holder : Holder) (s : State) :
    Mirrors g (appendTo stack room v holder) (appendTo stack room v holder) s := by
  cases holder with
  | text id t => exact mirrors_bind (mirrors_plainText hg v) fun _ _ _ => mirrors_newString hg _
  | array id vs => exact mirrors_newArray hg _

theorem mirrors_popFrom (holder : Holder) (s : State) : Mirrors g (popFrom holder) (popFrom holder) s := by
  unfold popFrom
  split
  · split
    · exact mirrors_bind (mirrors_change (hg.setText s _ _)) fun _ _ _ => mirrors_newText hg _
    · rfl
  · exact mirrors_bind (mirrors_change (hg.setArray s _ _)) fun _ _ _ => rfl
  · rfl

theorem mirrors_removeLastFrom (holder : Holder) (s : State) :
    Mirrors g (removeLastFrom holder) (removeLastFrom holder) s := by
  cases holder with
  | text id t =>
    cases hlast : t.toList.getLast? with
    | some c =>
      simp only [removeLastFrom, hlast]
      exact mirrors_bind (mirrors_change (hg.setText s _ _)) fun _ _ _ => mirrors_newText hg _
    | none =>
      simp only [removeLastFrom, hlast]
      rfl
  | array id vs =>
    cases hlast : vs.getLast? with
    | some v =>
      simp only [removeLastFrom, hlast]
      exact mirrors_bind (mirrors_change (hg.setArray s _ _)) fun _ _ _ => rfl
    | none =>
      simp only [removeLastFrom, hlast]
      rfl

/-- Builtin functions do not look behind a veil. -/
theorem mirrors_call (b : Builtin) (settings : Settings) (args : List Value) :
    Mirrors g (b.call settings room args) (b.call settings room args) s := by
  cases b with
  | print =>
    by_cases hargs : args.isEmpty
    · simp only [call, hargs, if_true]
      rfl
    · simp only [call, hargs]
      exact mirrors_printAll hg args
  | len =>
    refine mirrors_one fun v => mirrors_onSequence hg fun holder s => ?_
    cases holder <;> rfl
  | first => exact mirrors_one fun v => mirrors_onSequence hg (mirrors_firstOf hg settings.onEmpty)
  | rest => exact mirrors_one fun v => mirrors_onSequence hg (mirrors_restOf hg settings.onEmpty)
  | push => exact mirrors_two fun v w => mirrors_onSequence hg (mirrors_pushOn hg w)
  | append => exact mirrors_two fun v w => mirrors_onSequence hg (mirrors_appendTo hg w)
  | pop => exact mirrors_one fun v => mirrors_onSequence hg (mirrors_popFrom hg)
  | removeLast => exact mirrors_one fun v => mirrors_onSequence hg (mirrors_removeLastFrom hg)

end Builtin

end

namespace Eval

section
variable {g : State → State} {settings : Settings} {room : Nat} {inner inner' : ScopeId → Node → Run Value} {F : ScopeId}
  {n : Node} {s : State}

theorem mirrors_ofExcept (r : Except EvalError Value) : Mirrors g (ofExcept r) (ofExcept r) s := by
  cases r <;> rfl

theorem mirrors_truth (blame : ValueType → EvalError) (v : Value) : Mirrors g (truth blame v) (truth blame v) s := by
  cases v <;> rfl

theorem mirrors_asPosition (v : Value) : Mirrors g (asPosition v) (asPosition v) s := by
  cases v <;> rfl

theorem mirrors_select {α : Type} (kind : SequenceKind) (items : List α) (position : Int) :
    Mirrors g (select kind items position) (select kind items position) s := by
  unfold select
  split
  · rfl
  · split
    · split
      · rfl
      · exact mirrors_find rfl
    · exact mirrors_find rfl

theorem mirrors_ident {name : String} (hlookup : (g s).lookup F name = s.lookup F name) :
    Mirrors g (ident F name) (ident F name) s := by
  unfold ident
  split
  · rfl
  · exact mirrors_bind (mirrors_look hlookup) fun v s' _ => mirrors_use v

section
variable (hlookup : ∀ name, (g s).lookup F name = s.lookup F name)
  (hbind : ∀ s' name v, Mirrors g (bindName F name v) (bindName F name v) s')

theorem mirrors_blame (e : EvalError) : Mirrors g (blame settings room n e) (blame settings room n e) s :=
  mirrors_bind mirrors_makeText fun _ _ _ => rfl

include hlookup hbind in
theorem mirrors_postfixOp (op : Operator) (operand : Node) :
    Mirrors g (postfixOp settings room F op operand) (postfixOp settings room F op operand) s := by
  unfold postfixOp
  split
  · exact mirrors_blame _
  · split
    · refine mirrors_bind (mirrors_look (hlookup _)) fun v s' _ => ?_
      split
      · exact mirrors_bind (hbind _ _ _) fun _ _ _ => rfl
      · rfl
      · rfl
    · exact mirrors_blame _

end

section
variable (hpasses : ∀ n' s', Passes settings inner F n s n' s' → Mirrors g (inner F n') (inner' F n') s')
  (hcatches : ∀ F' n' s', Catches inner F n s F' n' s' → Mirrors g (inner F' n') (inner' F' n') s')
include hpasses

theorem mirrors_whileStmt {c b : Node} (hn : n = .whileStmt c b) :
    Mirrors g (whileStmt settings inner F c b) (whileStmt settings inner' F c b) s := by
  subst hn
  refine mirrors_repeatWhile (fun k s' hk h => ?_) fun k s' s₁ hk h ht => ?_
  · exact mirrors_bind (hpasses c s' (.whileCondition h hk)) fun v _ _ => mirrors_truth _ v
  · obtain ⟨v, s₂, hc, htruth⟩ := bind_eq_ok.mp ht
    obtain ⟨rfl, rfl⟩ := truth_eq_ok.mp htruth
    exact hpasses b s₂ (.whileBody h hk hc)

theorem mirrors_ifThen {c y : Node} (hn : n = .ifThen c y) :
    Mirrors g (ifThen inner F c y) (ifThen inner' F c y) s := by
  subst hn
  refine mirrors_bind (hpasses c s .ifThenCondition) fun v s₁ hc => ?_
  refine mirrors_bind (mirrors_truth _ v) fun b s₂ htruth => ?_
  obtain ⟨rfl, rfl⟩ := truth_eq_ok.mp htruth
  cases b with
  | true => exact hpasses y s₁ (.ifThenYes hc)
  | false => rfl

theorem mirrors_ifElse {c y no : Node} (hn : n = .ifElse c y no) :
    Mirrors g (ifElse inner F c y no) (ifElse inner' F c y no) s := by
  subst hn
  refine mirrors_bind (hpasses c s .ifElseCondition) fun v s₁ hc => ?_
  refine mirrors_bind (mirrors_truth _ v) fun b s₂ htruth => ?_
  obtain ⟨rfl, rfl⟩ := truth_eq_ok.mp htruth
  cases b with
  | true => exact hpasses y s₁ (.ifElseYes hc)
  | false => exact hpasses no s₁ (.ifElseNo hc)

theorem mirrors_index (hg : Veil g) {t i : Node} (hn : n = .index t i) :
    Mirrors g (index inner F t i) (index inner' F t i) s := by
  subst hn
  refine mirrors_bind (hpasses t s .target) fun v s₁ ht => ?_
  cases v with
  | arr id =>
    refine mirrors_bind (hpasses i s₁ (.arrayPosition ht)) fun u s₂ _ => ?_
    refine mirrors_bind (mirrors_asPosition u) fun n s₃ _ => mirrors_bind (mirrors_array hg id) fun vs s₄ _ => ?_
    exact mirrors_bind (mirrors_select _ vs n) fun v s₅ _ => mirrors_use v
  | str id =>
    refine mirrors_bind (mirrors_text hg id) fun cs s₂ htext => ?_
    obtain ⟨hcs, rfl⟩ := text_eq_ok.mp htext
    refine mirrors_bind (hpasses i s₁ (.stringPosition ht hcs)) fun u s₂ _ => ?_
    refine mirrors_bind (mirrors_asPosition u) fun n s₃ _ => ?_
    exact mirrors_bind (mirrors_select _ cs n) fun c s₄ _ => mirrors_newText hg [c]
  | _ => rfl

include hcatches in
theorem mirrors_call (hg : Veil g)
    (hnew : ∀ scope n' s', Catches inner F n s s'.scopes.size n' (s'.addScope scope) →
      Mirrors g (newScope scope) (newScope scope) s') {f : Node} {args : List Node} (hn : n = .call f args) :
    Mirrors g (call settings room inner F f args) (call settings room inner' F f args) s := by
  subst hn
  refine mirrors_bind (hpasses f s .callee) fun v s₁ hf => ?_
  cases v with
  | builtin b =>
    refine mirrors_bind (mirrors_each fun before e after vs s' hargs hbefore => ?_) fun vs s₂ _ => ?_
    · exact hpasses e s' (hargs ▸ .builtinArg hf hbefore)
    · exact mirrors_bind (Builtin.mirrors_call hg b settings vs) fun v _ _ => mirrors_use v
  | fn params body captured =>
    simp only [callFunction]
    split
    · rfl
    · next hlength =>
      have hlength := Decidable.not_not.mp hlength
      refine mirrors_bind (mirrors_each fun before e after vs s' hargs hbefore => ?_) fun vs s' hargs => ?_
      · exact hpasses e s' (hargs ▸ .functionArg hf (hargs ▸ hlength) hbefore)
      · have hbody := Catches.body hf hlength hargs
        refine mirrors_bind (hnew _ _ s' hbody) fun F' s₂ hmade => mirrors_endReturn ?_
        obtain ⟨heq, rfl⟩ := Prod.mk.inj hmade
        obtain rfl := Except.ok.inj heq
        exact hcatches _ _ _ hbody
  | _ => rfl

end

/-- A node mirrors itself if its parts do and the veil does not show in its scope, nor in scopes that it makes. -/
theorem mirrors_node (hg : Veil g) (hlookup : ∀ name, (g s).lookup F name = s.lookup F name)
    (hbind : ∀ s' name v, Mirrors g (bindName F name v) (bindName F name v) s')
    (hnew : ∀ scope n' s', Catches inner F n s s'.scopes.size n' (s'.addScope scope) →
      Mirrors g (newScope scope) (newScope scope) s')
    (hpasses : ∀ n' s', Passes settings inner F n s n' s' → Mirrors g (inner F n') (inner' F n') s')
    (hcatches : ∀ F' n' s', Catches inner F n s F' n' s' → Mirrors g (inner F' n') (inner' F' n') s') :
    Mirrors g (node settings room inner F n) (node settings room inner' F n) s := by
  -- Between its parts a node does the same on both sides, and it gets to a part only through parts that mirror.
  cases n with
  | program body =>
    refine mirrors_endReturn (mirrors_inOrder fun before e after v s' hbody hbefore => ?_)
    exact hcatches F e s' (hbody ▸ .programStmt hbefore)
  | block body =>
    refine mirrors_inOrder fun before e after v s' hbody hbefore => ?_
    exact hpasses e s' (hbody ▸ .blockStmt hbefore)
  | letStmt x e =>
    refine mirrors_bind (hpasses e s .letStmt) fun v s' _ => ?_
    split
    · rfl
    · exact mirrors_bind (hbind s' x v) fun _ _ _ => rfl
  | returnStmt e => exact mirrors_bind (hpasses e s .returnStmt) fun _ _ _ => rfl
  | exprStmt e => exact hpasses e s .exprStmt
  | whileStmt c b => exact mirrors_whileStmt hpasses rfl
  | ident name => exact mirrors_ident (hlookup name)
  | str t => exact mirrors_newString hg t
  | prefixOp op e => exact mirrors_bind (hpasses e s .prefixOp) fun _ _ _ => mirrors_ofExcept _
  | infixOp op l r =>
    refine mirrors_bind (hpasses l s .left) fun v s' hl => ?_
    exact mirrors_bind (hpasses r s' (.right hl)) fun _ _ _ => mirrors_ofExcept _
  | postfixOp op e => exact mirrors_postfixOp hlookup hbind op e
  | ifThen c y => exact mirrors_ifThen hpasses rfl
  | ifElse c y no => exact mirrors_ifElse hpasses rfl
  | call f args => exact mirrors_call hpasses hcatches hg hnew rfl
  | array elements =>
    refine mirrors_bind (mirrors_each fun before e after vs s' helements hbefore => ?_) fun vs s' _ => ?_
    · exact hpasses e s' (helements ▸ .element hbefore)
    · exact mirrors_newArray hg vs
  | index t i => exact mirrors_index hpasses hg rfl
  | _ => rfl

/-- The parts that a node passes on or catches are all that it depends on. -/
theorem node_congr (hpasses : ∀ n' s', Passes settings inner F n s n' s' → inner F n' s' = inner' F n' s')
    (hcatches : ∀ F' n' s', Catches inner F n s F' n' s' → inner F' n' s' = inner' F' n' s') :
    node settings room inner F n s = node settings room inner' F n s := by
  have hveil : Veil id := ⟨fun _ => rfl, fun _ => rfl, fun _ _ => rfl, fun _ _ => rfl, fun _ _ _ => rfl,
    fun _ _ _ => rfl, fun _ _ => rfl⟩
  have hmirrors : Mirrors id (node settings room inner F n) (node settings room inner' F n) s := by
    refine mirrors_node hveil (fun _ => rfl) (fun _ _ _ => rfl) (fun _ _ _ _ => rfl) (fun n' s' h => ?_)
      fun F' n' s' h => ?_
    · exact (hpasses n' s' h).symm
    · exact (hcatches F' n' s' h).symm
  exact hmirrors.symm

end

section
variable {settings settings' : Settings} {inner inner' : ScopeId → Node → Run Value} {F F' : ScopeId} {n n' : Node}
  {s s' : State}

theorem rounds_of_congr {c b : Node} {k : Nat}
    (hpasses : ∀ n' s', Passes settings inner F (.whileStmt c b) s n' s' → inner F n' s' = inner' F n' s')
    (hk : k < settings.patience)
    (h : Rounds (do truth .whileCondition (← inner' F c)) (inner' F b) k s s') :
    Rounds (do truth .whileCondition (← inner F c)) (inner F b) k s s' := by
  refine h.of_congr (fun j s₁ hj h => ?_) fun j s₁ s₂ hj h ht => ?_
  · exact bind_congr (hpasses c s₁ (.whileCondition h (Nat.lt_trans hj hk))) fun _ _ _ => rfl
  · obtain ⟨v, s₃, hc, htruth⟩ := bind_eq_ok.mp ht
    obtain ⟨rfl, rfl⟩ := truth_eq_ok.mp htruth
    exact hpasses b s₃ (.whileBody h (Nat.lt_trans hj hk) hc)

section
variable (hpasses : ∀ n' s', Passes settings inner F n s n' s' → inner F n' s' = inner' F n' s')
include hpasses

theorem Passes.of_congr (h : Passes settings' inner' F n s n' s') (hrounds : settings'.patience = settings.patience) :
    Passes settings inner F n s n' s' := by
  have hok {n' : Node} {s₁ : State} {result : Except Stop Value × State} (hpart : Passes settings inner F n s n' s₁)
      (hresult : inner' F n' s₁ = result) : inner F n' s₁ = result := (hpasses n' s₁ hpart).trans hresult
  cases h with
  | letStmt => exact .letStmt
  | returnStmt => exact .returnStmt
  | exprStmt => exact .exprStmt
  | prefixOp => exact .prefixOp
  | left => exact .left
  | right hl => exact .right (hok .left hl)
  | @element before e after vs _ _ hbefore =>
    refine .element ((each_congr (n' :: after) fun before e after vs s' helements h => ?_).trans hbefore)
    exact hpasses e s' (helements ▸ .element h)
  | callee => exact .callee
  | @builtinArg f b before e after vs _ s₁ _ hf hbefore =>
    have hf := hok .callee hf
    refine .builtinArg hf ((each_congr (n' :: after) fun before e after vs s' hargs h => ?_).trans hbefore)
    exact hpasses e s' (hargs ▸ .builtinArg hf h)
  | @functionArg f params body captured before e after vs _ s₁ _ hf hlength hbefore =>
    have hf := hok .callee hf
    refine .functionArg hf hlength ((each_congr (n' :: after) fun before e after vs s' hargs h => ?_).trans hbefore)
    exact hpasses e s' (hargs ▸ .functionArg hf (hargs ▸ hlength) h)
  | target => exact .target
  | arrayPosition ht => exact .arrayPosition (hok .target ht)
  | stringPosition ht hcs => exact .stringPosition (hok .target ht) hcs
  | ifThenCondition => exact .ifThenCondition
  | ifThenYes hc => exact .ifThenYes (hok .ifThenCondition hc)
  | ifElseCondition => exact .ifElseCondition
  | ifElseYes hc => exact .ifElseYes (hok .ifElseCondition hc)
  | ifElseNo hc => exact .ifElseNo (hok .ifElseCondition hc)
  | whileCondition h hk =>
    rw [hrounds] at hk
    exact .whileCondition (rounds_of_congr hpasses hk h) hk
  | whileBody h hk hc =>
    rw [hrounds] at hk
    have h := rounds_of_congr hpasses hk h
    exact .whileBody h hk (hok (.whileCondition h hk) hc)
  | @blockStmt before e after v _ _ hbefore =>
    refine .blockStmt ((inOrder_congr (n' :: after) fun before e after v s' hbody h => ?_).trans hbefore)
    exact hpasses e s' (hbody ▸ .blockStmt h)

theorem Catches.of_congr (hcatches : ∀ F' n' s', Catches inner F n s F' n' s' → inner F' n' s' = inner' F' n' s')
    (h : Catches inner' F n s F' n' s') : Catches inner F n s F' n' s' := by
  cases h with
  | @programStmt before e after v _ _ hbefore =>
    refine .programStmt ((inOrder_congr (n' :: after) fun before e after v s' hbody h => ?_).trans hbefore)
    exact hcatches F e s' (hbody ▸ .programStmt h)
  | body hf hlength hargs =>
    have hf := (hpasses _ _ .callee).trans hf
    refine .body hf hlength ((each_congr [] fun before e after vs s' hargs h => ?_).trans hargs)
    rw [List.append_nil] at hargs
    exact hpasses e s' (hargs ▸ .functionArg hf (hargs ▸ hlength) h)

end

end

end Eval
end Scriptlet
