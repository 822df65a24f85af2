import Scriptlet.Proofs.Evaluation.Lawful
import Scriptlet.Proofs.Evaluation.References

/-! Properties of values that evaluation passes on.  If literals, results of operators and functions have one, then all
values have it that an evaluation meets, as long as all those have it that were there before. -/
namespace Scriptlet

def Value.Carries (P : Node → Prop) : Value → Prop
  | fn _ body _ => P body
  | returned v => Carries P v
  | _ => True

def Value.Defined (P : Node → Prop) : Value → Prop
  | fn params body _ => P (.fn params body)
  | returned v => Defined P v
  | _ => True

namespace State

structure Every (good : Value → Prop) (s : State) : Prop where
  bindings : ∀ (E : ScopeId) (scope : Scope), s.scopes[E]? = some scope → ∀ entry ∈ scope.bindings, good entry.2
  elements : ∀ (id : ArrayId) (vs : List Value), s.arrays[id]? = some vs → ∀ v ∈ vs, good v

namespace Every
variable {good : Value → Prop} {s : State} {vs : List Value} {v : Value} {E : ScopeId} {name : String}

theorem initial (good : Value → Prop) : Every good .initial := by
  refine ⟨fun E scope h entry hentry => ?_, fun id vs h => by simp [State.initial] at h⟩
  cases E with
  | zero =>
    obtain rfl := Option.some.inj h
    cases hentry
  | succ E => simp [State.initial] at h

theorem put (h : s.Every good) (hv : good v) : (s.put E name v).Every good := by
  refine ⟨fun F scope hscope entry hentry => ?_, h.elements⟩
  rw [scopes_put_getElem?] at hscope
  split at hscope
  · obtain ⟨old, hold, rfl⟩ := Option.map_eq_some_iff.mp hscope
    rcases Table.mem_put hentry with rfl | hentry
    · exact hv
    · exact h.bindings F old hold entry hentry
  · exact h.bindings F scope hscope entry hentry

theorem addScope {scope : Scope} (h : s.Every good) (hscope : ∀ entry ∈ scope.bindings, good entry.2) :
    (s.addScope scope).Every good := by
  refine ⟨fun F scope' hscope' => ?_, h.elements⟩
  rw [scopes_addScope_getElem?] at hscope'
  split at hscope'
  · obtain rfl := Option.some.inj hscope'
    exact hscope
  · exact h.bindings F scope' hscope'

theorem addArray (h : s.Every good) (hvs : ∀ v ∈ vs, good v) : (s.addArray vs).Every good := by
  refine ⟨h.bindings, fun id vs' hvs' => ?_⟩
  rw [arrays_addArray_getElem?] at hvs'
  split at hvs'
  · obtain rfl := Option.some.inj hvs'
    exact hvs
  · exact h.elements id vs' hvs'

theorem setArray {id : ArrayId} (h : s.Every good) (hvs : ∀ v ∈ vs, good v) : (s.setArray id vs).Every good := by
  refine ⟨h.bindings, fun id' vs' hvs' => ?_⟩
  rcases arrays_setArray_getElem? hvs' with rfl | hvs'
  · exact hvs
  · exact h.elements id' vs' hvs'

theorem of_find? (h : s.Every good) (hv : s.find? E name = some v) : good v := by
  obtain ⟨F, scope, -, hscope, hget⟩ := exists_scope_of_find? hv
  exact h.bindings F scope hscope _ (Table.mem_of_get?_eq_some hget)

end Every
end State

namespace Law

/-- Nothing but good values is kept or passed on, and none but known nodes are evaluated. -/
def every (good : Value → Prop) (known : Node → Prop) : Law :=
  ⟨State.Every good, fun _ _ _ => True, fun _ => good, fun _ _ => True, known⟩

/-- Evaluating known nodes makes good values, lengths of sequences apart. -/
structure Makes (known : Node → Prop) (good : Value → Prop) : Prop where
  child {n c : Node} : known n → c ∈ n.children → known c
  null : good .null
  bool (b : Bool) : good (.bool b)
  builtin (b : Builtin) : good (.builtin b)
  literal {n : Int} : known (.int n) → good (.int n)
  wrap (n : Int) : good (.int (wrap n))
  str (id : TextId) : good (.str id)
  arr (id : ArrayId) : good (.arr id)
  fn {params : List String} {body : Node} (E : ScopeId) : known (.fn params body) → good (.fn params body E)
  body {params : List String} {body : Node} {E : ScopeId} : good (.fn params body E) → known body
  returned {v : Value} : good (.returned v) → good v

theorem every_sound {good : Value → Prop} {known : Node → Prop} (h : Makes known good) :
    (every good known).Sound where
  refl _ _ := trivial
  trans _ _ := trivial
  allows_mono _ hv := hv
  knows_mono _ _ := trivial
  child := h.child
  null _ := h.null
  bool _ := h.bool
  builtin _ := h.builtin
  int := h.literal
  wrap _ := h.wrap
  fn hn _ := h.fn _ hn
  body := h.body
  returned := h.returned
  find hs _ hv := hs.of_find? hv
  element hs _ hvs hv := hs.elements _ _ hvs _ hv
  bind hs _ _ hv _ := ⟨hs.put hv, trivial⟩
  enter hs _ hvs _ :=
    ⟨⟨hs.addScope fun _ hentry => hvs _ (Eval.mem_of_mem_localScope hentry), trivial⟩, fun _ _ => trivial⟩
  addText _ _ hs := ⟨⟨⟨hs.bindings, hs.elements⟩, trivial⟩, h.str _⟩
  addArray _ hs hvs := ⟨⟨hs.addArray hvs, trivial⟩, h.arr _⟩
  setText _ hs _ _ := ⟨⟨hs.bindings, hs.elements⟩, trivial⟩
  setArray _ hs hvs hpart := ⟨hs.setArray fun v hv => hs.elements _ _ hvs v (hpart.mem hv), trivial⟩
  print _ _ hs := ⟨⟨hs.bindings, hs.elements⟩, trivial⟩

theorem every_closed {good : Value → Prop} {known : Node → Prop} (h : Makes known good)
    (hlength : ∀ k : Nat, good (.int k)) : (every good known).Closed where
  toSound := every_sound h
  textLength _ _ := hlength _
  arrayLength _ _ := hlength _

theorem makes_carries {P : Node → Prop} (hP : ∀ n c, P n → c ∈ n.children → P c) : Makes P (Value.Carries P) where
  child := hP _ _
  null := trivial
  bool _ := trivial
  builtin _ := trivial
  literal _ := trivial
  wrap _ := trivial
  str _ := trivial
  arr _ := trivial
  fn _ hn := hP _ _ hn (by simp [Node.children])
  body hv := hv
  returned hv := hv

end Law
end Scriptlet
