import Mathlib.Data.List.Basic
import Mathlib.Data.List.Induction
import Scriptlet.Proofs.Evaluation.States

/-! What a name stands for in a scope.  Scopes are made inside one another and names are put on them; that history alone
tells what each scope binds and which scopes lie around it.  A name stands for what was put last on the nearest scope, from
its own outwards, on which the name was ever put. -/
namespace Scriptlet
namespace State

/-- What can be asked of scopes.  They are numbered in the order in which they are made. -/
inductive Request
  | new (outer : Option ScopeId)
  | put (scope : ScopeId) (name : String) (v : Value)
  | get (scope : ScopeId) (name : String)

namespace Request

def scope? : Request → Option ScopeId
  | new outer => outer
  | put scope _ _ | get scope _ => some scope

def outer? : Request → Option (Option ScopeId)
  | new outer => some outer
  | put _ _ _ | get _ _ => none

def value? (scope : ScopeId) (name : String) : Request → Option Value
  | put scope' name' v => if scope' = scope ∧ name' = name then some v else none
  | new _ | get _ _ => none

end Request

def empty : State := ⟨#[], #[], #[], ""⟩

def perform (s : State) : Request → State
  | .new outer => s.addScope ⟨outer, []⟩
  | .put scope name v => s.put scope name v
  | .get _ _ => s

def ofRequests (requests : List Request) : State := requests.foldl perform empty

def outers (requests : List Request) : List (Option ScopeId) := requests.filterMap Request.outer?

def latest (requests : List Request) (scope : ScopeId) (name : String) : Option Value :=
  (requests.filterMap (Request.value? scope name)).getLast?

/-- Every request names a scope that was made before it. -/
def NamesExisting (requests : List Request) : Prop :=
  ∀ (i : Nat) (h : i < requests.length), ∀ scope ∈ requests[i].scope?, scope < (outers (requests.take i)).length

instance (requests : List Request) : Decidable (NamesExisting requests) :=
  inferInstanceAs (Decidable (∀ (i : Nat) (h : i < requests.length), ∀ scope ∈ requests[i].scope?,
    scope < (outers (requests.take i)).length))

/-- A scope, the one around it, the one around that, and so on to one that lies in no other. -/
inductive Outwards (requests : List Request) : ScopeId → List ScopeId → Prop
  | last {E} (h : (outers requests)[E]? = some none) : Outwards requests E [E]
  | cons {E F chain} (h : (outers requests)[E]? = some (some F)) (hrest : Outwards requests F chain) :
      Outwards requests E (E :: chain)

/-- From a scope outwards, the other one comes before any scope on which the name was put. -/
def ReachesFirst (requests : List Request) (E scope : ScopeId) (name : String) : Prop :=
  ∃ nearer farther, Outwards requests E (nearer ++ scope :: farther) ∧ ∀ F ∈ nearer, latest requests F name = none

section
variable {s : State} {requests : List Request} {request : Request} {E F scope : ScopeId} {name x : String} {v : Value}
  {chain : List ScopeId}

theorem ofRequests_concat_request (requests : List Request) (request : Request) :
    ofRequests (requests ++ [request]) = (ofRequests requests).perform request :=
  List.foldl_append

theorem outers_concat (requests : List Request) (request : Request) :
    outers (requests ++ [request]) = outers requests ++ request.outer?.toList := by
  rw [outers, List.filterMap_append]
  cases h : request.outer? with
  | none => rw [List.filterMap_cons_none h, List.filterMap_nil, Option.toList_none, outers]
  | some outer => rw [List.filterMap_cons_some h, List.filterMap_nil, Option.toList_some, outers]

theorem latest_concat (requests : List Request) (request : Request) (scope : ScopeId) (name : String) :
    latest (requests ++ [request]) scope name = (request.value? scope name).or (latest requests scope name) := by
  rw [latest, List.filterMap_append]
  cases h : request.value? scope name with
  | none => rw [List.filterMap_cons_none h, List.filterMap_nil, List.append_nil, Option.none_or, latest]
  | some v => rw [List.filterMap_cons_some h, List.filterMap_nil, List.getLast?_concat, Option.some_or]

theorem namesExisting_concat : NamesExisting (requests ++ [request]) ↔
    NamesExisting requests ∧ ∀ scope ∈ request.scope?, scope < (outers requests).length := by
  constructor
  · intro h
    refine ⟨fun i hi => ?_, ?_⟩
    · have hi' : i < (requests ++ [request]).length := by
        rw [List.length_append]
        exact Nat.lt_add_right _ hi
      have hat := h i hi'
      rwa [List.getElem_append_left hi, List.take_append_of_le_length (Nat.le_of_lt hi)] at hat
    · have hat := h requests.length (by simp)
      rwa [List.getElem_concat_length rfl, List.take_left' rfl] at hat
  · rintro ⟨h, hlast⟩ i hi
    by_cases hbefore : i < requests.length
    · rw [List.getElem_append_left hbefore, List.take_append_of_le_length (Nat.le_of_lt hbefore)]
      exact h i hbefore
    · rw [List.length_append, List.length_singleton] at hi
      obtain rfl : i = requests.length := by omega
      rwa [List.getElem_concat_length rfl, List.take_left' rfl]

theorem Outwards.head_eq (h : Outwards requests E (F :: chain)) : F = E := by cases h <;> rfl

theorem outer_lt (h : NamesExisting requests) (houter : (outers requests)[E]? = some (some F)) : F < E := by
  induction requests using List.reverseRecOn with
  | nil => cases houter
  | append_singleton requests request ih =>
    obtain ⟨hbefore, hlast⟩ := namesExisting_concat.mp h
    rw [outers_concat] at houter
    cases request with
    | put _ _ _ | get _ _ =>
      rw [Request.outer?, Option.toList_none, List.append_nil] at houter
      exact ih hbefore houter
    | new outer =>
      rw [Request.outer?, Option.toList_some, List.getElem?_append] at houter
      split at houter
      · exact ih hbefore houter
      · rename_i hnew
        rw [List.getElem?_singleton] at houter
        split at houter
        · cases houter
          exact Nat.lt_of_lt_of_le (hlast F rfl) (Nat.not_lt.mp hnew)
        · cases houter

/-- Every scope has a way outwards, past older and older scopes. -/
theorem exists_outwards (h : NamesExisting requests) (hE : E < (outers requests).length) :
    ∃ chain, Outwards requests E chain ∧ chain.Pairwise (· > ·) ∧ ∀ F ∈ chain, F ≤ E := by
  induction E using Nat.strongRecOn with
  | _ E ih =>
    obtain ⟨outer, houter⟩ : ∃ outer, (outers requests)[E]? = some outer := ⟨_, List.getElem?_eq_getElem hE⟩
    cases outer with
    | none => exact ⟨[E], .last houter, List.pairwise_singleton _ _, by simp⟩
    | some F =>
      have hlt := outer_lt h houter
      obtain ⟨chain, hchain, holder, hle⟩ := ih F hlt (Nat.lt_trans hlt hE)
      have hbelow (G : ScopeId) (hG : G ∈ chain) : G < E := Nat.lt_of_le_of_lt (hle G hG) hlt
      refine ⟨E :: chain, .cons houter hchain, List.pairwise_cons.mpr ⟨hbelow, holder⟩, fun G hG => ?_⟩
      rcases List.mem_cons.mp hG with rfl | hG
      · exact Nat.le_refl G
      · exact Nat.le_of_lt (hbelow G hG)

theorem bindings_put (s : State) (E F : ScopeId) (name : String) (v : Value) : (s.put E name v).bindings F =
    if E = F ∧ F < s.scopes.size then (s.bindings F).put name v else s.bindings F := by
  rw [bindings, scopes_put_getElem?]
  by_cases hE : E = F
  · by_cases hF : F < s.scopes.size
    · simp [bindings, hE, hF]
    · simp [bindings, hE, hF]
  · simp [bindings, hE]

theorem bindings_addScope (s : State) (outer : Option ScopeId) (F : ScopeId) :
    (s.addScope ⟨outer, []⟩).bindings F = s.bindings F := by
  rw [bindings, scopes_addScope_getElem?]
  by_cases hF : F = s.scopes.size
  · simp [bindings, hF]
  · simp [bindings, hF]

/-- The scopes of a state are those that the requests made, and each binds what was put last on it. -/
structure Reflects (s : State) (requests : List Request) : Prop where
  outer : ∀ E : ScopeId, s.scopes[E]?.map (·.outer) = (outers requests)[E]?
  bound : ∀ (E : ScopeId) (name : String), (s.bindings E).get? name = latest requests E name

theorem Reflects.size_eq (h : s.Reflects requests) : s.scopes.size = (outers requests).length := by
  have hsize (E : ScopeId) : s.scopes.size ≤ E ↔ (outers requests).length ≤ E := by
    rw [← Array.getElem?_eq_none_iff, ← List.getElem?_eq_none_iff, ← h.outer, Option.map_eq_none_iff]
  exact Nat.le_antisymm ((hsize _).mpr (Nat.le_refl _)) ((hsize _).mp (Nat.le_refl _))

theorem Reflects.perform (h : s.Reflects requests)
    (hnames : ∀ scope ∈ request.scope?, scope < (outers requests).length) :
    (s.perform request).Reflects (requests ++ [request]) := by
  cases request with
  | new outer =>
    refine ⟨fun E => ?_, fun E name => ?_⟩
    · rw [outers_concat, State.perform, scopes_addScope_getElem?, h.size_eq]
      by_cases hE : E = (outers requests).length
      · simp [hE, Request.outer?]
      · rw [if_neg hE, h.outer, Request.outer?, Option.toList_some, List.getElem?_append]
        split
        · rfl
        · rename_i hold
          have hbeyond : (outers requests).length < E := Nat.lt_of_le_of_ne (Nat.not_lt.mp hold) (Ne.symm hE)
          rw [List.getElem?_eq_none (Nat.le_of_lt hbeyond), List.getElem?_singleton,
            if_neg (Nat.sub_ne_zero_of_lt hbeyond)]
    · rw [latest_concat, State.perform, bindings_addScope, Request.value?, Option.none_or, h.bound]
  | put scope name v =>
    have hscope : scope < s.scopes.size := h.size_eq ▸ hnames scope rfl
    refine ⟨fun E => ?_, fun E x => ?_⟩
    · rw [outers_concat, State.perform, scopes_put_getElem?, Request.outer?, Option.toList_none, List.append_nil,
        ← h.outer]
      split
      · rw [Option.map_map]
        rfl
      · rfl
    · rw [latest_concat, State.perform, bindings_put, Request.value?, ← h.bound]
      by_cases hE : scope = E
      · subst hE
        by_cases hx : name = x <;> simp [hscope, Table.get?_put, hx]
      · simp [hE]
  | get scope name =>
    refine ⟨fun E => ?_, fun E x => ?_⟩
    · rw [outers_concat, Request.outer?, Option.toList_none, List.append_nil, ← h.outer, State.perform]
    · rw [latest_concat, Request.value?, Option.none_or, ← h.bound, State.perform]

theorem reflects_ofRequests_of_namesExisting (h : NamesExisting requests) :
    (ofRequests requests).Reflects requests := by
  induction requests using List.reverseRecOn with
  | nil => exact ⟨fun _ => rfl, fun _ _ => rfl⟩
  | append_singleton requests request ih =>
    obtain ⟨hbefore, hlast⟩ := namesExisting_concat.mp h
    rw [ofRequests_concat_request]
    exact (ih hbefore).perform hlast

/-- The search goes the way outwards and stops at the first scope with the name. -/
theorem Reflects.find?_eq (hs : s.Reflects requests) (hnames : NamesExisting requests)
    (h : Outwards requests E chain) (name : String) :
    s.find? E name = chain.findSome? fun F => latest requests F name := by
  have hstep {E : ScopeId} {outer : Option ScopeId} (houter : (outers requests)[E]? = some outer) :
      s.find? E name = (latest requests E name).or
        (outer.bind fun F => if F < E then s.find? F name else none) := by
    rw [← hs.outer, Option.map_eq_some_iff] at houter
    obtain ⟨⟨around, table⟩, hscope, rfl⟩ := houter
    have htable : table.get? name = latest requests E name := by
      rw [← hs.bound, bindings, hscope]
      rfl
    rw [find?, hscope]
    simp only [htable]
    cases latest requests E name with
    | none => cases around <;> rfl
    | some v => rw [Option.some_or]
  induction h with
  | last h => rw [hstep h, Option.bind_none, Option.or_none, List.findSome?_singleton]
  | @cons E F chain h _ ih =>
    rw [hstep h, Option.bind_some, if_pos (outer_lt hnames h), ih, List.findSome?_cons]
    cases latest requests E name <;> rfl

theorem lookup_eq_findSome? (hnames : NamesExisting requests) (h : Outwards requests E chain) (name : String) :
    (ofRequests requests).lookup E name = (chain.findSome? fun F => latest requests F name).getD .null := by
  rw [lookup, (reflects_ofRequests_of_namesExisting hnames).find?_eq hnames h]

theorem outwards_concat_put :
    Outwards (requests ++ [.put scope name v]) E chain ↔ Outwards requests E chain := by
  have houters : outers (requests ++ [.put scope name v]) = outers requests := by
    rw [outers_concat, Request.outer?, Option.toList_none, List.append_nil]
  constructor
  · intro h
    induction h with
    | last h => exact .last (houters ▸ h)
    | cons h _ ih => exact .cons (houters ▸ h) ih
  · intro h
    induction h with
    | last h => exact .last (houters ▸ h)
    | cons h _ ih => exact .cons (houters ▸ h) ih

theorem latest_concat_put (F : ScopeId) : latest (requests ++ [.put scope name v]) F x =
    if scope = F ∧ name = x then some v else latest requests F x := by
  rw [latest_concat, Request.value?]
  split
  · exact Option.some_or
  · exact Option.none_or

section
variable {f : ScopeId → Option Value}

/-- One more value is found first if nothing is found before it. -/
theorem findSome?_of_first {nearer : List ScopeId} (farther : List ScopeId) (hnearer : ∀ F ∈ nearer, f F = none) :
    (nearer ++ scope :: farther).findSome? (fun F => if scope = F then some v else f F) = some v := by
  induction nearer with
  | nil => rw [List.nil_append, List.findSome?_cons, if_pos rfl]
  | cons F nearer ih =>
    obtain ⟨hF, hnearer⟩ := List.forall_mem_cons.mp hnearer
    rw [List.cons_append, List.findSome?_cons]
    by_cases hscope : scope = F
    · rw [if_pos hscope]
    · rw [if_neg hscope, hF]
      exact ih hnearer

theorem findSome?_of_not_first
    (h : ¬ ∃ nearer farther, chain = nearer ++ scope :: farther ∧ ∀ F ∈ nearer, f F = none) :
    chain.findSome? (fun F => if scope = F then some v else f F) = chain.findSome? f := by
  induction chain with
  | nil => rfl
  | cons F chain ih =>
    have hscope : scope ≠ F := by
      rintro rfl
      exact h ⟨[], chain, rfl, nofun⟩
    rw [List.findSome?_cons, List.findSome?_cons, if_neg hscope]
    cases hF : f F with
    | some w => rfl
    | none =>
      refine ih fun ⟨nearer, farther, heq, hnearer⟩ => h ⟨F :: nearer, farther, congrArg (F :: ·) heq, ?_⟩
      exact List.forall_mem_cons.mpr ⟨hF, hnearer⟩

end

/-- A scope that has no scope with the name nearer than `scope` sees what is put there. -/
theorem lookup_put_of_reachesFirst (hnames : NamesExisting (requests ++ [.put scope name v]))
    (h : ReachesFirst requests E scope name) :
    (ofRequests (requests ++ [.put scope name v])).lookup E name = v := by
  obtain ⟨nearer, farther, hchain, hnearer⟩ := h
  rw [lookup_eq_findSome? hnames (outwards_concat_put.mpr hchain)]
  simp only [latest_concat_put, and_true]
  rw [findSome?_of_first farther hnearer, Option.getD_some]

/-- No other name and no other scope see it. -/
theorem lookup_put_of_not_reachesFirst (hnames : NamesExisting (requests ++ [.put scope name v]))
    (hchain : Outwards requests E chain) (h : ¬ (x = name ∧ ReachesFirst requests E scope name)) :
    (ofRequests (requests ++ [.put scope name v])).lookup E x = (ofRequests requests).lookup E x := by
  rw [lookup_eq_findSome? hnames (outwards_concat_put.mpr hchain),
    lookup_eq_findSome? (namesExisting_concat.mp hnames).1 hchain]
  simp only [latest_concat_put]
  by_cases hx : name = x
  · subst hx
    simp only [and_true]
    rw [findSome?_of_not_first]
    rintro ⟨nearer, farther, rfl, hnearer⟩
    exact h ⟨rfl, nearer, farther, hchain, hnearer⟩
  · simp only [hx, and_false, if_false]

/-- Take any scopes that were made inside one another, names put on them and asked for, each request for scopes made before.
From each scope there is a way outwards past older and older scopes, so that the search for a name ends.  It finds what was
put last for the name on the first scope of that way on which it was ever put, and null if there is none.  What is put for a
name on a scope is found for that name from all the scopes whose way comes to this one before any other that has the name;
for other names, and from other scopes, nothing changes. -/
theorem names_stand_for_nearest_latest {requests : List Request} (h : NamesExisting requests) {E : ScopeId}
    (hE : E < (outers requests).length) :
    (∃ chain, Outwards requests E chain ∧ chain.Pairwise (· > ·)) ∧
    (∀ chain, Outwards requests E chain → ∀ name, (ofRequests requests).lookup E name =
      (chain.findSome? fun F => latest requests F name).getD .null) ∧
    ∀ scope name v, scope < (outers requests).length → ∀ x,
      (x = name ∧ ReachesFirst requests E scope name →
        (ofRequests (requests ++ [.put scope name v])).lookup E x = v) ∧
      (¬ (x = name ∧ ReachesFirst requests E scope name) →
        (ofRequests (requests ++ [.put scope name v])).lookup E x = (ofRequests requests).lookup E x) := by
  obtain ⟨chain, hchain, holder, -⟩ := exists_outwards h hE
  refine ⟨⟨chain, hchain, holder⟩, fun chain => lookup_eq_findSome? h, fun scope name v hscope x => ?_⟩
  have hnames : NamesExisting (requests ++ [.put scope name v]) :=
    namesExisting_concat.mpr ⟨h, fun F hF => Option.some.inj hF ▸ hscope⟩
  refine ⟨fun ⟨hx, hreaches⟩ => ?_, lookup_put_of_not_reachesFirst hnames hchain⟩
  rw [hx]
  exact lookup_put_of_reachesFirst hnames hreaches

end

def siblings : List Request := [.new none, .put 0 "x" (.int 1), .new (some 0), .new (some 0), .put 1 "x" (.int 2),
  .get 2 "x", .put 0 "x" (.int 3)]

/-- Only the scope that does not have the name itself sees what is put for it on the one around. -/
theorem siblings_stand_for_nearest_latest : NamesExisting siblings ∧
    (ofRequests siblings).lookup 1 "x" = .int 2 ∧ (ofRequests siblings).lookup 2 "x" = .int 3 ∧
    (ofRequests siblings).lookup 2 "y" = .null ∧
    (ofRequests (siblings ++ [.put 0 "x" (.int 4)])).lookup 2 "x" = .int 4 ∧
    (ofRequests (siblings ++ [.put 0 "x" (.int 4)])).lookup 1 "x" = .int 2 := by
  have hnames : NamesExisting siblings := by decide
  have hfirst : Outwards siblings 1 [1, 0] := .cons rfl (.last rfl)
  have hsecond : Outwards siblings 2 [2, 0] := .cons rfl (.last rfl)
  obtain ⟨-, hfound, hput⟩ := names_stand_for_nearest_latest hnames (show 1 < (outers siblings).length by decide)
  obtain ⟨-, hfound', hput'⟩ := names_stand_for_nearest_latest hnames (show 2 < (outers siblings).length by decide)
  have hbound : (ofRequests siblings).lookup 1 "x" = .int 2 := hfound _ hfirst "x"
  refine ⟨hnames, hbound, hfound' _ hsecond "x", hfound' _ hsecond "y", ?_, ?_⟩
  · exact (hput' 0 "x" (.int 4) (by decide) "x").1 ⟨rfl, [2], [], hsecond, List.forall_mem_singleton.mpr rfl⟩
  · refine ((hput 0 "x" (.int 4) (by decide) "x").2 ?_).trans hbound
    -- The scope itself is on the way to the one around it, and has the name.
    rintro ⟨-, nearer, farther, hchain, hnearer⟩
    cases nearer with
    | nil => cases hchain.head_eq
    | cons F nearer =>
      have hown : latest siblings 1 "x" = none := hchain.head_eq ▸ hnearer F List.mem_cons_self
      cases hown

end State
end Scriptlet
