import Mathlib
import Scriptlet.Proofs.Evaluation.Shrinking
import Scriptlet.Proofs.Parsing.Trees

/-! Index expressions.  An array and a string are both sequences of items, and a position selects one of them, from the
front or from the back.  What the position is looked up in differs, though, if evaluating it takes items out of the very
sequence: an array is looked at afterwards, a string before. -/
namespace Scriptlet
open Relation (ReflTransGen)

inductive Item
  | element (v : Value)
  | character (c : Char)
deriving Repr

def Item.give : Item → Run Value
  | element v => pure v
  | character c => Run.newText [c]

namespace SequenceKind

def value : SequenceKind → Nat → Value
  | array, id => .arr id
  | string, id => .str id

/-- What a position comes to in a sequence: from 0 on it counts from the front, from -1 down from the back. -/
inductive Selects {α : Type} (kind : SequenceKind) (xs : List α) (n : Int) : Except EvalError α → Prop
  | front {x} (hn : 0 ≤ n) (hx : xs[n.toNat]? = some x) : Selects kind xs n (.ok x)
  | back {x} (hn : n < 0) (hle : -(xs.length : Int) ≤ n) (hx : xs[(xs.length + n).toNat]? = some x) :
      Selects kind xs n (.ok x)
  | beyond (hn : (xs.length : Int) ≤ n) : Selects kind xs n (.error (.indexBeyond kind xs.length n))
  | reverseBeyond (hn : n < -(xs.length : Int)) : Selects kind xs n (.error (.reverseIndexBeyond kind xs.length n))

section
variable {α β : Type} {kind : SequenceKind} {xs : List α} {n : Int} {result result' : Except EvalError α}

theorem Selects.unique (h : kind.Selects xs n result) (h' : kind.Selects xs n result') : result = result' := by
  have hbounds {k : Nat} {x : α} (hx : xs[k]? = some x) : k < xs.length := (List.getElem?_eq_some_iff.mp hx).1
  cases h with
  | front hn hx =>
    have hlt := hbounds hx
    cases h' with
    | front _ hx' => exact congrArg Except.ok (Option.some.inj (hx.symm.trans hx'))
    | _ => omega
  | back hn hle hx =>
    cases h' with
    | back _ _ hx' => exact congrArg Except.ok (Option.some.inj (hx.symm.trans hx'))
    | _ => omega
  | beyond hn =>
    cases h' with
    | front _ hx' =>
      have hlt := hbounds hx'
      omega
    | beyond _ => rfl
    | _ => omega
  | reverseBeyond hn =>
    cases h' with
    | reverseBeyond _ => rfl
    | _ => omega

theorem exists_selects_ok_iff : (∃ x, kind.Selects xs n (.ok x)) ↔ -(xs.length : Int) ≤ n ∧ n < xs.length := by
  constructor
  · rintro ⟨x, h⟩
    cases h with
    | front hn hx =>
      have hlt := (List.getElem?_eq_some_iff.mp hx).1
      omega
    | back hn hle hx => omega
  · rintro ⟨hle, hlt⟩
    by_cases hn : 0 ≤ n
    · have hfront : n.toNat < xs.length := by omega
      exact ⟨_, .front hn (List.getElem?_eq_getElem hfront)⟩
    · have hback : (xs.length + n).toNat < xs.length := by omega
      exact ⟨_, .back (Int.not_le.mp hn) hle (List.getElem?_eq_getElem hback)⟩

theorem Selects.mem {x : α} (h : kind.Selects xs n (.ok x)) : x ∈ xs := by
  cases h with
  | front _ hx | back _ _ hx => exact List.mem_of_getElem? hx

theorem Selects.map (f : α → β) (h : kind.Selects xs n result) : kind.Selects (xs.map f) n (result.map f) := by
  have hlength : (xs.map f).length = xs.length := List.length_map f
  cases h with
  | front hn hx => exact .front hn (by rw [List.getElem?_map, hx, Option.map_some])
  | back hn hle hx => exact .back hn (by rwa [hlength]) (by rw [hlength, List.getElem?_map, hx, Option.map_some])
  | beyond hn => exact hlength ▸ .beyond (by rwa [hlength])
  | reverseBeyond hn => exact hlength ▸ .reverseBeyond (by rwa [hlength])

open Run in
/-- Selecting an item reverses the sequence to count from its back. -/
theorem exists_selects (kind : SequenceKind) (xs : List α) (n : Int) (s : State) :
    ∃ result, kind.Selects xs n result ∧ select kind xs n s = Eval.ofExcept result s := by
  by_cases hbeyond : (xs.length : Int) ≤ n
  · refine ⟨_, .beyond hbeyond, ?_⟩
    rw [select, if_pos hbeyond]
    rfl
  by_cases hn : n < 0
  · by_cases hreverse : (xs.length : Int) < -n
    · refine ⟨_, .reverseBeyond (by omega), ?_⟩
      rw [select, if_neg hbeyond, if_pos hn, if_pos hreverse]
      rfl
    · have hlt : (-n - 1).toNat < xs.length := by omega
      have hplace : xs.length - 1 - (-n - 1).toNat = (xs.length + n).toNat := by omega
      have hback : (xs.length + n).toNat < xs.length := by omega
      have hx : xs[(xs.length + n).toNat]? = some xs[(xs.length + n).toNat] := List.getElem?_eq_getElem hback
      have hfound : xs.reverse[(-n - 1).toNat]? = some xs[(xs.length + n).toNat] := by
        rw [List.getElem?_reverse hlt, hplace, hx]
      refine ⟨.ok _, .back hn (by omega) hx, ?_⟩
      rw [select, if_neg hbeyond, if_pos hn, if_neg hreverse]
      exact find_eq_ok.mpr ⟨hfound, rfl⟩
  · have hlt : n.toNat < xs.length := by omega
    have hx : xs[n.toNat]? = some xs[n.toNat] := List.getElem?_eq_getElem hlt
    refine ⟨.ok _, .front (Int.not_lt.mp hn) hx, ?_⟩
    rw [select, if_neg hbeyond, if_neg hn]
    exact find_eq_ok.mpr ⟨hx, rfl⟩

end

end SequenceKind

def State.items? (s : State) : SequenceKind → Nat → Option (List Item)
  | .array, id => s.arrays[id]?.map (List.map .element)
  | .string, id => s.texts[id]?.map (List.map .character)

theorem Shrinks.items? {s s' : State} (h : Shrinks s s') {kind : SequenceKind} {id : Nat} {xs : List Item}
    (hxs : s.items? kind id = some xs) : ∃ ys, s'.items? kind id = some ys ∧ ys <:+: xs := by
  cases kind with
  | array =>
    obtain ⟨vs, hvs, rfl⟩ := Option.map_eq_some_iff.mp hxs
    obtain ⟨vs', hvs', hpart⟩ := h.arrays id vs hvs
    exact ⟨vs'.map .element, by rw [State.items?, hvs', Option.map_some], hpart.map _⟩
  | string =>
    obtain ⟨cs, hcs, rfl⟩ := Option.map_eq_some_iff.mp hxs
    obtain ⟨cs', hcs', hpart⟩ := h.texts id cs hcs
    exact ⟨cs'.map .character, by rw [State.items?, hcs', Option.map_some], hpart.map _⟩

namespace Eval
open Run

def answer (result : Except EvalError Item) : Run Value := do
  let item ← ofExcept result
  use (← item.give)

/-- A visit to an index expression gets this target and then, its position evaluated, this position.  The target is found
in state `before`, and state `after` follows the position. -/
def Visit.Indexes (settings : Settings) (w : Visit) (target : Value) (n : Int) (before after : State) : Prop :=
  ∃ t i : Node, w.node = .index t i ∧ Fits settings w.frames w.node ∧
    inside settings w.frames w.node w.scope t w.state = (.ok target, before) ∧
      inside settings w.frames w.node w.scope i before = (.ok (.int n), after)

section
variable {settings : Settings} {w : Visit} {kind : SequenceKind} {id : Nat} {n : Int} {before after : State}
  {xs : List Item}

theorem shrinks_of_indexes {target : Value} (h : w.Indexes settings target n before after) : Shrinks before after := by
  obtain ⟨t, i, -, -, -, hi⟩ := h
  have hshrinks : Shrinks before (inside settings w.frames w.node w.scope i before).2 :=
    shrinks_of_outcome settings ⟨framesFor settings w.frames w.node i, w.scope, i, before⟩
  rwa [hi] at hshrinks

/-- An array is looked at once the position is known. -/
theorem outcome_of_array (h : w.Indexes settings (.arr id) n before after) (hxs : after.items? .array id = some xs) :
    ∃ result, SequenceKind.array.Selects xs n result ∧ w.outcome settings = answer result after := by
  obtain ⟨t, i, hindex, hfits, ht, hi⟩ := h
  obtain ⟨vs, hvs, rfl⟩ := Option.map_eq_some_iff.mp hxs
  obtain ⟨result, hselects, hselect⟩ := SequenceKind.exists_selects .array vs n after
  refine ⟨result.map .element, hselects.map _, ?_⟩
  have harray : array id after = (.ok vs, after) := find_eq_ok.mpr ⟨hvs, rfl⟩
  have hitem : (do use (← select .array (← array id) n)) after = answer (result.map .element) after := by
    refine (bind_of_ok harray).trans ?_
    cases result with
    | error e => exact bind_of_error hselect
    | ok v => exact bind_of_ok hselect
  rw [Visit.outcome, eval_of_fits hfits]
  rw [hindex] at ht hi ⊢
  exact (bind_of_ok ht).trans ((bind_of_ok hi).trans hitem)

/-- A string is looked at before its position is evaluated. -/
theorem outcome_of_string (h : w.Indexes settings (.str id) n before after) (hxs : before.items? .string id = some xs) :
    ∃ result, SequenceKind.string.Selects xs n result ∧ w.outcome settings = answer result after := by
  obtain ⟨t, i, hindex, hfits, ht, hi⟩ := h
  obtain ⟨cs, hcs, rfl⟩ := Option.map_eq_some_iff.mp hxs
  obtain ⟨result, hselects, hselect⟩ := SequenceKind.exists_selects .string cs n after
  refine ⟨result.map .character, hselects.map _, ?_⟩
  have htext : text id before = (.ok cs, before) := text_eq_ok.mpr ⟨hcs, rfl⟩
  have hitem : (do newText [← select .string cs n]) after = answer (result.map .character) after := by
    cases result with
    | error e => exact bind_of_error hselect
    | ok c => exact bind_of_ok hselect
  rw [Visit.outcome, eval_of_fits hfits]
  rw [hindex] at ht hi ⊢
  exact (bind_of_ok ht).trans ((bind_of_ok htext).trans ((bind_of_ok hi).trans hitem))

end

/-- The position of an index expression may take items out of the very sequence that is indexed.  The bounds and the item
are then those of what is left of it if it is an array, and those of the whole of it if it is a string.  Where nothing is
taken out of it the two kinds are alike. -/
theorem index_after_position {settings : Settings} {w : Visit} {kind : SequenceKind} {id : Nat} {n : Int}
    {before after : State} {xs : List Item} (h : w.Indexes settings (kind.value id) n before after)
    (hxs : before.items? kind id = some xs) :
    ∃ ys, after.items? kind id = some ys ∧ ys <:+: xs ∧
      (kind = .array ∨ ys = xs →
        ∃ result, kind.Selects ys n result ∧ w.outcome settings = answer result after) ∧
      (kind = .string → ∃ result, kind.Selects xs n result ∧ w.outcome settings = answer result after) := by
  obtain ⟨ys, hys, hpart⟩ := (shrinks_of_indexes h).items? hxs
  refine ⟨ys, hys, hpart, fun hleft => ?_, ?_⟩
  · cases kind with
    | array => exact outcome_of_array h hys
    | string =>
      obtain rfl : ys = xs := hleft.resolve_left (by simp)
      exact outcome_of_string h hxs
  · rintro rfl
    exact outcome_of_string h hxs

/-- The item at place 1 of what `q` stands for, with its first item taken out of it on the way to the position. -/
def popThenSecond : Node := .index (.ident "q") (.index (.array [.call (.ident "pop") [.ident "q"], .int 1]) (.int 1))

def twoNumbers : State := (State.initial.addArray [.int 7, .int 8]).put 0 "q" (.arr 0)

def twoLetters : State := (State.initial.addText ['a', 'b']).put 0 "q" (.str 0)

/-- Of the array only one number is left, so the place is beyond its bounds. -/
theorem index_after_pop_of_array :
    Visit.Indexes ⟨.null, .flat, 9, 9⟩ ⟨7, 0, popThenSecond, twoNumbers⟩ (SequenceKind.array.value 0) 1 twoNumbers
      ((twoNumbers.setArray 0 [.int 8]).addArray [.int 7, .int 1]) ∧
    twoNumbers.items? .array 0 = some [.element (.int 7), .element (.int 8)] ∧
    (Visit.outcome ⟨.null, .flat, 9, 9⟩ ⟨7, 0, popThenSecond, twoNumbers⟩).1 =
      .error (.failed (.indexBeyond .array 1 1)) := by
  have hindexes : Visit.Indexes ⟨.null, .flat, 9, 9⟩ ⟨7, 0, popThenSecond, twoNumbers⟩ (SequenceKind.array.value 0) 1
      twoNumbers ((twoNumbers.setArray 0 [.int 8]).addArray [.int 7, .int 1]) :=
    ⟨_, _, rfl, by decide, by cbv, by cbv⟩
  have hitems : twoNumbers.items? .array 0 = some [.element (.int 7), .element (.int 8)] := rfl
  obtain ⟨ys, hys, -, hleft, -⟩ := index_after_position hindexes hitems
  obtain rfl : [Item.element (.int 8)] = ys := Option.some.inj hys
  obtain ⟨result, hselects, houtcome⟩ := hleft (.inl rfl)
  have hbeyond : result = .error (.indexBeyond .array 1 1) := hselects.unique (.beyond (by decide))
  exact ⟨hindexes, hitems, by rw [houtcome, hbeyond]; rfl⟩

set_option maxRecDepth 8000 in
/-- So it is not true that an index expression in a parsed program sees its target as the position has left it: of the
string the letter is selected that was second before. -/
theorem string_index_not_after_position :
    ¬ ∀ (w : Visit) (kind : SequenceKind) (id : Nat) (n : Int) (before after : State) (ys : List Item),
      w.Occurs ⟨.null, .flat, 9, 9⟩ Program.Parsed → w.Indexes ⟨.null, .flat, 9, 9⟩ (kind.value id) n before after →
        after.items? kind id = some ys →
          ∃ result, kind.Selects ys n result ∧ w.outcome ⟨.null, .flat, 9, 9⟩ = answer result after := by
  intro hall
  let program : Node := .program [.letStmt "q" (.str "ab"), .exprStmt popThenSecond]
  have hparsed : Program.Parsed program :=
    ⟨"let q = \"ab\" q[[pop(q), 1][1]]", by cbv⟩
  have hlet : inOrder (inside ⟨.null, .flat, 9, 9⟩ 9 program 0) .null [.letStmt "q" (.str "ab")] .initial =
      (.ok .null, twoLetters) := by cbv
  have hoccurs : Visit.Occurs ⟨.null, .flat, 9, 9⟩ Program.Parsed ⟨7, 0, popThenSecond, twoLetters⟩ :=
    ⟨.initial, _, .start, hparsed,
      .head (.inr (.part (by decide) (.programStmt hlet))) (.single (.inl (.part (by decide) .exprStmt)))⟩
  have hindexes : Visit.Indexes ⟨.null, .flat, 9, 9⟩ ⟨7, 0, popThenSecond, twoLetters⟩ (SequenceKind.string.value 0) 1
      twoLetters (((twoLetters.setText 0 ['b']).addText ['a']).addArray [.str 1, .int 1]) :=
    ⟨_, _, rfl, by decide, by cbv, by cbv⟩
  have hletters : twoLetters.items? .string 0 = some [.character 'a', .character 'b'] := by cbv
  obtain ⟨result, hselects, houtcome⟩ := hall _ .string 0 1 _ _ [.character 'b'] hoccurs hindexes (by cbv)
  have hbeyond : result = .error (.indexBeyond .string 1 1) := hselects.unique (.beyond (by decide))
  obtain ⟨result', hselects', houtcome'⟩ := outcome_of_string hindexes hletters
  have hsecond : result' = .ok (.character 'b') := hselects'.unique (.front (by decide) rfl)
  rw [houtcome', hsecond, hbeyond] at houtcome
  cases congrArg Prod.fst houtcome

end Eval
end Scriptlet
