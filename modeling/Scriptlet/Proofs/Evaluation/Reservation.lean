import Mathlib
import Scriptlet.Proofs.Evaluation.Reached
import Scriptlet.Proofs.Evaluation.Values
import Scriptlet.Proofs.Parsing.Trees

/-! Where names of builtin functions are bound.  A `let` refuses them, and an operator after a variable binds only what
some scope binds already, but a call binds the parameters of a function under whatever names they have.  So such a name
is never bound globally, and in a call it is that of a parameter, which stays hidden behind the builtin function. -/
namespace Scriptlet

namespace State

/-- The global scope lies in no other one, and names of builtin functions are bound in other scopes only and under
these names only. -/
structure Reserved (named : String → Prop) (s : State) : Prop where
  global : ∃ scope, s.scopes[globalScope]? = some scope ∧ scope.outer = none
  bound (E : ScopeId) (scope : Scope) : s.scopes[E]? = some scope → ∀ x ∈ scope.bindings.keys,
    (Builtin.ofName? x).isSome → scope.outer.isSome ∧ named x

namespace Reserved
variable {named : String → Prop} {s s' : State} {E : ScopeId} {scope : Scope} {x : String} {v : Value}

theorem initial (named : String → Prop) : Reserved named .initial := by
  refine ⟨⟨_, rfl, rfl⟩, fun E scope h x hx => ?_⟩
  cases E with
  | zero =>
    obtain rfl := Option.some.inj h
    cases hx
  | succ E => simp [State.initial] at h

theorem of_scopes_eq (h : s.Reserved named) (hscopes : s'.scopes = s.scopes) : s'.Reserved named :=
  ⟨hscopes ▸ h.global, hscopes ▸ h.bound⟩

theorem of_find? (h : s.Reserved named) (hscope : s.scopes[E]? = some scope) (hv : s.find? E x = some v)
    (hx : (Builtin.ofName? x).isSome) : scope.outer.isSome ∧ named x := by
  obtain ⟨F, found, -, hfound, hget⟩ := exists_scope_of_find? hv
  have hkey : x ∈ found.bindings.keys := List.mem_map.mpr ⟨_, Table.mem_of_get?_eq_some hget, rfl⟩
  have hnamed : named x := (h.bound F found hfound x hkey hx).2
  refine ⟨?_, hnamed⟩
  -- Either the scope binds the name itself or the search goes on outside it.
  rw [find?, hscope] at hv
  cases hhere : scope.bindings.get? x with
  | some u =>
    have hkey : x ∈ scope.bindings.keys := List.mem_map.mpr ⟨_, Table.mem_of_get?_eq_some hhere, rfl⟩
    exact (h.bound E scope hscope x hkey hx).1
  | none =>
    cases houter : scope.outer with
    | none => simp [hhere, houter] at hv
    | some o => rfl

theorem put (h : s.Reserved named) (hx : Builtin.ofName? x = none ∨ ∃ n, s.lookup E x = .int n) :
    (s.put E x v).Reserved named := by
  refine ⟨?_, fun F scope' hscope' y hy hbuiltin => ?_⟩
  · obtain ⟨global, hglobal, houter⟩ := h.global
    rw [scopes_put_getElem?]
    split
    · exact ⟨{ global with bindings := global.bindings.put x v }, by simp [hglobal], houter⟩
    · exact ⟨global, hglobal, houter⟩
  · rw [scopes_put_getElem?] at hscope'
    split at hscope'
    · next hE =>
      subst hE
      obtain ⟨old, hold, rfl⟩ := Option.map_eq_some_iff.mp hscope'
      rcases Table.eq_or_mem_of_mem_keys_put hy with rfl | hy
      · rcases hx with hnone | ⟨n, hn⟩
        · simp [hnone] at hbuiltin
        · cases hfind : s.find? E y with
          | none => simp [lookup, hfind] at hn
          | some u =>
            have hfound := h.of_find? hold hfind hbuiltin
            exact hfound
      · exact h.bound E old hold y hy hbuiltin
    · exact h.bound F scope' hscope' y hy hbuiltin

theorem addScope (h : s.Reserved named) (houter : scope.outer.isSome)
    (hnamed : ∀ x ∈ scope.bindings.keys, named x) : (s.addScope scope).Reserved named := by
  refine ⟨?_, fun F scope' hscope' y hy hbuiltin => ?_⟩
  · obtain ⟨global, hglobal, hnone⟩ := h.global
    have hlt : globalScope < s.scopes.size := (Array.getElem?_eq_some_iff.mp hglobal).1
    refine ⟨global, ?_, hnone⟩
    rw [scopes_addScope_getElem?, if_neg (Nat.ne_of_lt hlt), hglobal]
  · rw [scopes_addScope_getElem?] at hscope'
    split at hscope'
    · obtain rfl := Option.some.inj hscope'
      exact ⟨houter, hnamed y hy⟩
    · exact h.bound F scope' hscope' y hy hbuiltin

end Reserved
end State

namespace Law
open Eval

def HasParameter (known : Node → Prop) (x : String) : Prop := ∃ params body, known (.fn params body) ∧ x ∈ params

/-- Functions are those of known nodes, and names of builtin functions are bound as their parameters only. -/
def reserving (known : Node → Prop) : Law where
  Holds s := s.Every (Value.Defined known) ∧ s.Reserved (HasParameter known)
  Leads _ _ _ := True
  Allows _ v := v.Defined known
  Knows _ _ := True
  Admits := known

theorem reserving_closed {known : Node → Prop} (hknown : ∀ n c, known n → c ∈ n.children → known c) :
    (reserving known).Closed where
  refl _ _ := trivial
  trans _ _ := trivial
  allows_mono _ hv := hv
  knows_mono _ _ := trivial
  child := hknown _ _
  null _ := trivial
  bool _ _ := trivial
  builtin _ _ := trivial
  int _ := trivial
  wrap _ _ := trivial
  textLength _ _ := trivial
  arrayLength _ _ := trivial
  fn hn _ := hn
  body hv := hknown _ _ hv (by simp [Node.children])
  returned hv := hv
  find h _ hv := h.1.of_find? hv
  element h _ hvs hv := h.1.elements _ _ hvs _ hv
  bind h _ _ hv hname := ⟨⟨h.1.put hv, h.2.put hname⟩, trivial⟩
  enter {_ _ params body _ vs} h hfn hvs _ := by
    refine ⟨⟨⟨h.1.addScope fun _ hentry => hvs _ (mem_of_mem_localScope hentry), ?_⟩, trivial⟩, fun _ _ => trivial⟩
    refine h.2.addScope rfl fun x hx => ?_
    obtain ⟨entry, hentry, rfl⟩ := List.mem_map.mp hx
    exact ⟨params, body, hfn, mem_params_of_mem_localScope hentry⟩
  addText _ _ h := ⟨⟨⟨⟨h.1.bindings, h.1.elements⟩, h.2.of_scopes_eq rfl⟩, trivial⟩, trivial⟩
  addArray _ h hvs := ⟨⟨⟨h.1.addArray hvs, h.2.of_scopes_eq rfl⟩, trivial⟩, trivial⟩
  setText _ h _ _ := ⟨⟨⟨h.1.bindings, h.1.elements⟩, h.2.of_scopes_eq rfl⟩, trivial⟩
  setArray _ h hvs hpart :=
    ⟨⟨h.1.setArray fun v hv => h.1.elements _ _ hvs v (hpart.mem hv), h.2.of_scopes_eq rfl⟩, trivial⟩
  print _ _ h := ⟨⟨⟨h.1.bindings, h.1.elements⟩, h.2.of_scopes_eq rfl⟩, trivial⟩

theorem reserving_start (known : Node → Prop) : (reserving known).Ready State.globalScope .initial :=
  ⟨⟨State.Every.initial _, State.Reserved.initial _⟩, trivial⟩

end Law

namespace Eval
open Run Law

/-- No program gets to a state in which a name of a builtin function is bound globally.  A scope of a call that binds
such a name binds it as the parameter of a function that stands in one of the programs; so if no function in them has a
parameter of such a name, it is bound nowhere. -/
theorem builtin_names_bound_as_parameters (settings : Settings) {P : Node → Prop} {w : Visit}
    (hw : w.Occurs settings P) : ∀ s ∈ [w.state, (w.outcome settings).2],
      (∃ scope, s.scopes[State.globalScope]? = some scope ∧ ∀ b : Builtin, b.name ∉ scope.bindings.keys) ∧
      ∀ (E : ScopeId) (scope : Scope) (b : Builtin), s.scopes[E]? = some scope → b.name ∈ scope.bindings.keys →
        scope.outer.isSome ∧ ∃ n params body, P n ∧ n.Inside (.fn params body) ∧ b.name ∈ params := by
  have hclosed : (reserving fun c => ∃ n, P n ∧ n.Inside c).Closed :=
    reserving_closed fun _ _ ⟨n, hn, hc⟩ hchild => ⟨n, hn, hc.child hchild⟩
  obtain ⟨h, hn⟩ := ready_of_occurs hclosed (reserving_start _) (fun n hn => ⟨n, hn, .refl⟩) hw
  have hafter := h.next hclosed (keeps_outcome settings hclosed h hn).next
  intro s hs
  have hreserved : s.Reserved (HasParameter fun c => ∃ n, P n ∧ n.Inside c) := by
    rcases (by simpa using hs : s = w.state ∨ s = (w.outcome settings).2) with rfl | rfl
    · exact h.holds.2
    · exact hafter.holds.2
  have hname (b : Builtin) : (Builtin.ofName? b.name).isSome := by simp [Builtin.ofName?_name]
  refine ⟨?_, fun E scope b hscope hb => ?_⟩
  · obtain ⟨global, hglobal, houter⟩ := hreserved.global
    refine ⟨global, hglobal, fun b hb => ?_⟩
    have hinner := (hreserved.bound _ global hglobal b.name hb (hname b)).1
    simp [houter] at hinner
  · obtain ⟨hinner, params, body, ⟨n, hn, hinside⟩, hparam⟩ := hreserved.bound E scope hscope b.name hb (hname b)
    exact ⟨hinner, n, params, body, hn, hinside, hparam⟩

def hiddenParameter : Visit :=
  ⟨9, 0, .program [.exprStmt (.call (.fn ["len"] (.block [.exprStmt (.ident "len")])) [.int 2])], .initial⟩

set_option maxRecDepth 8000 in
/-- There is a scope that binds the name of a builtin function, though not the global one. -/
theorem hiddenParameter_bound :
    hiddenParameter.Occurs ⟨.null, .flat, 9, 9⟩ Program.Parsed ∧
      hiddenParameter.outcome ⟨.null, .flat, 9, 9⟩ =
        (.ok (.builtin .len), State.initial.addScope ⟨some 0, [("len", .int 2)]⟩) ∧
      ∃ scope, (hiddenParameter.outcome ⟨.null, .flat, 9, 9⟩).2.scopes[State.globalScope]? = some scope ∧
        ∀ b : Builtin, b.name ∉ scope.bindings.keys := by
  have hparsed : Program.Parsed hiddenParameter.node := ⟨"fn(len) \x7b len \x7d(2)", by cbv⟩
  have hw : hiddenParameter.Occurs ⟨.null, .flat, 9, 9⟩ Program.Parsed := ⟨.initial, _, .start, hparsed, .refl⟩
  have h := builtin_names_bound_as_parameters ⟨.null, .flat, 9, 9⟩ hw
  exact ⟨hw, by cbv, (h _ (by simp)).1⟩

set_option maxRecDepth 8000 in
/-- So it is not true that scopes bind no names of builtin functions, and the value of this parameter is out of reach:
its name stands for the builtin function. -/
theorem parameter_name_not_reserved :
    ¬ ∀ s, Ran ⟨.null, .flat, 9, 9⟩ Program.Parsed s → ∀ (E : ScopeId) (b : Builtin), b.name ∉ (s.bindings E).keys := by
  intro hreserved
  have hparsed : Program.Parsed hiddenParameter.node := ⟨"fn(len) \x7b len \x7d(2)", by cbv⟩
  have hran : Ran ⟨.null, .flat, 9, 9⟩ Program.Parsed
      (run ⟨.null, .flat, 9, 9⟩ State.globalScope hiddenParameter.node .initial).2 :=
    .program .start hparsed
  have hkeys : ((run ⟨.null, .flat, 9, 9⟩ State.globalScope hiddenParameter.node .initial).2.bindings 1).keys = ["len"] := by
    cbv
  exact hreserved _ hran 1 .len (by rw [hkeys]; decide)

end Eval
end Scriptlet
