import Mathlib
import Scriptlet.Proofs.Evaluation.Indexing
import Scriptlet.Proofs.Evaluation.Signals
import Scriptlet.Proofs.Evaluation.Taking

/-! The two ends of a sequence.  Index expressions and builtin functions mean the same items by the first and the last of
an array or a string, whatever its length: what is selected there is what is taken off there, and what has been put on at
an end is taken off again at that end. -/
namespace Scriptlet

def Item.kind : Item → SequenceKind
  | element _ => .array
  | character _ => .string

def Item.ShownBy (s : State) (v : Value) : Item → Prop
  | .element u => v = u
  | .character c => ∃ id, v = .str id ∧ s.texts[id]? = some [c]

namespace Builtin
open Run State

section
variable {α β : Type} {b : Builtin} {xs : List α} {y : β} {ys : List β} {f : α → β}

theorem Splits.of_map (h : Splits b (xs.map f) y ys) : ∃ x xs', Splits b xs x xs' ∧ y = f x ∧ ys = xs'.map f := by
  generalize hzs : xs.map f = zs at h
  cases h with
  | pop =>
    obtain ⟨x, xs', rfl, rfl, rfl⟩ := List.map_eq_cons_iff.mp hzs
    exact ⟨x, xs', .pop, rfl, rfl⟩
  | removeLast =>
    obtain ⟨xs', last, rfl, rfl, hlast⟩ := List.map_eq_append_iff.mp hzs
    obtain ⟨x, rfl, rfl⟩ := List.map_eq_singleton_iff.mp hlast
    exact ⟨x, xs', .removeLast, rfl, rfl⟩

end

/-- A builtin function takes an item off a sequence: it gives the value that the item stands for and leaves the others. -/
def TakesOff (settings : Settings) (room : Nat) (b : Builtin) (kind : SequenceKind) (id : Nat) (s : State)
    (x : Item) (others : List Item) : Prop :=
  ∃ v s', b.call settings room [kind.value id] s = (.ok v, s') ∧ (x.give s).1 = .ok v ∧ x.ShownBy s' v ∧
    s'.items? kind id = some others

/-- What one builtin function makes of a sequence and one more item, namely a sequence of the items `longer`, another one
undoes: it takes the item off and leaves what the sequence was made of. -/
def UndoneBy (settings : Settings) (room : Nat) (b b' : Builtin) (kind : SequenceKind) (id : Nat) (w : Value)
    (s : State) (x : Item) (longer shorter : List Item) : Prop :=
  ∃ new s', b.call settings room [kind.value id, w] s = (.ok (kind.value new), s') ∧ s'.items? kind new = some longer ∧
    s'.items? kind id = some shorter ∧
    len.call settings room [kind.value new] s' = (.ok (.int (shorter.length + 1)), s') ∧
    b'.TakesOff settings room kind new s' x shorter

section
variable {settings : Settings} {room : Nat} {kind : SequenceKind} {id : Nat} {s : State} {x : Item} {xs ys : List Item}
  {b : Builtin} {w : Value}

theorem string_of_text {cs : List Char} (hcs : s.texts[id]? = some cs) : string id s = (.ok (String.ofList cs), s) :=
  string_eq_ok.mpr ⟨by rwa [String.toList_ofList], rfl⟩

theorem array_of_elements {vs : List Value} (hvs : s.arrays[id]? = some vs) : array id s = (.ok vs, s) :=
  find_eq_ok.mpr ⟨hvs, rfl⟩

theorem items?_addText {cs : List Char} (h : s.items? kind id = some xs) : (s.addText cs).items? kind id = some xs := by
  cases kind with
  | array => exact h
  | string =>
    obtain ⟨cs', hcs', rfl⟩ := Option.map_eq_some_iff.mp h
    rw [items?, (Spares.addText (fun _ => True) s cs).texts trivial hcs', Option.map_some]

theorem items?_addArray {vs : List Value} (h : s.items? kind id = some xs) :
    (s.addArray vs).items? kind id = some xs := by
  cases kind with
  | string => exact h
  | array =>
    obtain ⟨vs', hvs', rfl⟩ := Option.map_eq_some_iff.mp h
    rw [items?, (Spares.addArray (fun _ => True) s vs).arrays trivial hvs', Option.map_some]

theorem call_len (h : s.items? kind id = some xs) :
    len.call settings room [kind.value id] s = (.ok (.int xs.length), s) := by
  cases kind with
  | array =>
    obtain ⟨vs, hvs, rfl⟩ := Option.map_eq_some_iff.mp h
    rw [List.length_map]
    exact bind_of_ok (array_of_elements hvs)
  | string =>
    obtain ⟨cs, hcs, rfl⟩ := Option.map_eq_some_iff.mp h
    refine (bind_of_ok (string_of_text hcs)).trans ?_
    simp only [Builtin.length, String.length_ofList, List.length_map]
    rfl

theorem call_first (h : s.items? kind id = some (x :: xs)) : first.call settings room [kind.value id] s = x.give s := by
  cases kind with
  | array =>
    obtain ⟨vs, hvs, hmap⟩ := Option.map_eq_some_iff.mp h
    obtain ⟨v, vs, rfl, rfl, rfl⟩ := List.map_eq_cons_iff.mp hmap
    exact bind_of_ok (array_of_elements hvs)
  | string =>
    obtain ⟨cs, hcs, hmap⟩ := Option.map_eq_some_iff.mp h
    obtain ⟨c, cs, rfl, rfl, rfl⟩ := List.map_eq_cons_iff.mp hmap
    refine (bind_of_ok (string_of_text hcs)).trans ?_
    simp only [firstOf, String.toList_ofList, Item.give]

theorem call_rest (h : s.items? kind id = some (x :: xs)) : ∃ new s',
    rest.call settings room [kind.value id] s = (.ok (kind.value new), s') ∧ s'.items? kind new = some xs := by
  cases kind with
  | array =>
    obtain ⟨vs, hvs, hmap⟩ := Option.map_eq_some_iff.mp h
    obtain ⟨v, vs, rfl, rfl, rfl⟩ := List.map_eq_cons_iff.mp hmap
    exact ⟨_, _, bind_of_ok (array_of_elements hvs), by simp [items?, addArray]⟩
  | string =>
    obtain ⟨cs, hcs, hmap⟩ := Option.map_eq_some_iff.mp h
    obtain ⟨c, cs, rfl, rfl, rfl⟩ := List.map_eq_cons_iff.mp hmap
    refine ⟨s.strings.size, s.addText cs, (bind_of_ok (string_of_text hcs)).trans ?_, ?_⟩
    · simp only [restOf, String.toList_ofList]
      rfl
    · simp [items?, ← size_texts]

theorem takesOff_of_splits (h : s.items? kind id = some xs) (hsplits : Splits b xs x ys) :
    b.TakesOff settings room kind id s x ys := by
  cases kind with
  | array =>
    obtain ⟨vs, hvs, rfl⟩ := Option.map_eq_some_iff.mp h
    obtain ⟨v, vs', hvs', rfl, rfl⟩ := hsplits.of_map
    have hlt : id < s.arrays.size := (Array.getElem?_eq_some_iff.mp hvs).1
    exact ⟨v, _, call_of_takes (.array hvs hvs'), rfl, rfl, by simp [items?, setArray, hlt]⟩
  | string =>
    obtain ⟨cs, hcs, rfl⟩ := Option.map_eq_some_iff.mp h
    obtain ⟨c, cs', hcs', rfl, rfl⟩ := hsplits.of_map
    have hlt : id < s.texts.size := (Array.getElem?_eq_some_iff.mp hcs).1
    have hleft : ((s.setText id cs').addText [c]).items? .string id = some (cs'.map .character) :=
      items?_addText (by simp [items?, hlt])
    have hgiven : ((s.setText id cs').addText [c]).texts[s.texts.size]? = some [c] := by
      have hsize : s.texts.size = (s.setText id cs').texts.size := by simp
      rw [texts_addText, hsize, Array.getElem?_push_size]
    refine ⟨_, _, call_of_takes (.text hcs hcs'), ?_, ⟨_, rfl, hgiven⟩, hleft⟩
    rw [size_texts]
    rfl

theorem call_push_append (h : s.items? kind id = some xs) (hkind : x.kind = kind) (hw : x.ShownBy s w) :
    (∃ new s', push.call settings room [kind.value id, w] s = (.ok (kind.value new), s') ∧
      s'.items? kind new = some (x :: xs) ∧ s'.items? kind id = some xs) ∧
    ∃ new s', append.call settings room [kind.value id, w] s = (.ok (kind.value new), s') ∧
      s'.items? kind new = some (xs ++ [x]) ∧ s'.items? kind id = some xs := by
  cases x with
  | element u =>
    obtain rfl : SequenceKind.array = kind := hkind
    obtain rfl : w = u := hw
    obtain ⟨vs, hvs, rfl⟩ := Option.map_eq_some_iff.mp h
    have harray := array_of_elements hvs
    refine ⟨⟨_, _, bind_of_ok harray, ?_, items?_addArray h⟩, ⟨_, _, bind_of_ok harray, ?_, items?_addArray h⟩⟩
    · simp [items?, addArray]
    · simp [items?, addArray]
  | character c =>
    obtain rfl : SequenceKind.string = kind := hkind
    obtain ⟨j, rfl, hc⟩ := hw
    obtain ⟨cs, hcs, rfl⟩ := Option.map_eq_some_iff.mp h
    have hstring := string_of_text hcs
    have hplain : plainText settings.stack room (.str j) s = (.ok (String.ofList [c]), s) := string_of_text hc
    have hnew (t : List Char) : newString (String.ofList t) s = (.ok (.str s.texts.size), s.addText t) := by
      rw [size_texts]
      rfl
    refine ⟨⟨s.texts.size, s.addText (c :: cs), ?_, by simp [items?], items?_addText h⟩,
      ⟨s.texts.size, s.addText (cs ++ [c]), ?_, by simp [items?], items?_addText h⟩⟩
    · refine (bind_of_ok hstring).trans ((bind_of_ok hplain).trans ?_)
      rw [← String.ofList_append]
      exact hnew _
    · refine (bind_of_ok hstring).trans ((bind_of_ok hplain).trans ?_)
      rw [← String.ofList_append]
      exact hnew _

theorem push_undoneBy_pop (h : s.items? kind id = some xs) (hkind : x.kind = kind) (hw : x.ShownBy s w) :
    push.UndoneBy settings room .pop kind id w s x (x :: xs) xs := by
  obtain ⟨⟨new, s', hpush, hnew, hold⟩, -⟩ := call_push_append h hkind hw
  exact ⟨new, s', hpush, hnew, hold, by simpa using call_len hnew, takesOff_of_splits hnew .pop⟩

theorem append_undoneBy_removeLast (h : s.items? kind id = some xs) (hkind : x.kind = kind) (hw : x.ShownBy s w) :
    append.UndoneBy settings room .removeLast kind id w s x (xs ++ [x]) xs := by
  obtain ⟨-, new, s', happend, hnew, hold⟩ := call_push_append h hkind hw
  exact ⟨new, s', happend, hnew, hold, by simpa using call_len hnew, takesOff_of_splits hnew .removeLast⟩

end

end Builtin

namespace Eval
open Run SequenceKind Builtin

section
variable {settings : Settings} {w : Visit} {kind : SequenceKind} {id : Nat} {n : Int} {before s : State} {xs : List Item}

theorem outcome_of_applies_builtin {b : Builtin} {args : List Value} (h : w.Applies settings (.builtin b) args s) :
    w.outcome settings = (do use (← b.call settings (roomFor settings w.frames w.node) args)) s := by
  obtain ⟨f, es, s₁, hcall, hfits, hf, hargs⟩ := h
  rw [Visit.outcome, eval_of_fits hfits]
  rw [hcall] at hf hargs ⊢
  exact (bind_of_ok hf).trans (bind_of_ok hargs)

/-- An index expression whose position leaves the sequence alone selects one of its items. -/
theorem outcome_of_unchanged (h : w.Indexes settings (kind.value id) n before s)
    (hbefore : before.items? kind id = some xs) (hxs : s.items? kind id = some xs) :
    ∃ result, kind.Selects xs n result ∧ w.outcome settings = answer result s := by
  cases kind with
  | array => exact outcome_of_array h hxs
  | string => exact outcome_of_string h hbefore

theorem answer_eq_ok {result : Except EvalError Item} (hdata : ∀ v, result = .ok (.element v) → v.isData) :
    (∃ v s', answer result s = (.ok v, s')) ↔ ∃ x, result = .ok x := by
  cases result with
  | error e => simp [answer, ofExcept, bind_of_error (show (fail e : Run Item) s = (.error (.failed e), s) from rfl)]
  | ok x =>
    refine ⟨fun _ => ⟨x, rfl⟩, fun _ => ?_⟩
    cases x with
    | element v => exact ⟨v, s, use_of_isData (hdata v rfl)⟩
    | character c => exact ⟨_, _, rfl⟩

end

/-- Take an array or a string with the items `xs`.  Indexed by `n` it gives an item if `n` is one of its positions, from
minus its length up to, but not including, its length, and none otherwise.  If it is not empty, `first` gives what it gives
indexed by 0, `pop` gives the same and leaves what `rest` makes a sequence of, and `removeLast` gives what is at position -1
and leaves all the others.  An item that `push` puts on is taken off again by `pop`, and one that `append` puts on by
`removeLast`, which leaves what there was; in between the length is greater by one. -/
theorem sequences_agree_at_both_ends (settings : Settings) (room : Nat) {kind : SequenceKind} {id : Nat} {s : State}
    {xs : List Item} (hxs : s.items? kind id = some xs) :
    (∀ (w : Visit) (n : Int) (before : State), w.Indexes settings (kind.value id) n before s →
      before.items? kind id = some xs →
        (∃ result, kind.Selects xs n result ∧ w.outcome settings = answer result s) ∧
        ((∃ x, kind.Selects xs n (.ok x)) ↔ -(xs.length : Int) ≤ n ∧ n < xs.length) ∧
        ((∀ v, .element v ∈ xs → v.isData) →
          ((∃ v s', w.outcome settings = (.ok v, s')) ↔ -(xs.length : Int) ≤ n ∧ n < xs.length))) ∧
    (∀ x ys, xs = x :: ys →
      kind.Selects xs 0 (.ok x) ∧
      first.call settings room [kind.value id] s = x.give s ∧
      (∀ w : Visit, w.Applies settings (.builtin .first) [kind.value id] s → w.outcome settings = answer (.ok x) s) ∧
      (∃ new s', rest.call settings room [kind.value id] s = (.ok (kind.value new), s') ∧
        s'.items? kind new = some ys) ∧
      pop.TakesOff settings room kind id s x ys) ∧
    (∀ x ys, xs = ys ++ [x] →
      kind.Selects xs (-1) (.ok x) ∧ removeLast.TakesOff settings room kind id s x ys) ∧
    ∀ x v, x.kind = kind → x.ShownBy s v →
      push.UndoneBy settings room .pop kind id v s x (x :: xs) xs ∧
      append.UndoneBy settings room .removeLast kind id v s x (xs ++ [x]) xs := by
  refine ⟨fun w n before h hbefore => ?_, ?_, ?_, fun x v hkind hv => ?_⟩
  · obtain ⟨result, hselects, houtcome⟩ := outcome_of_unchanged h hbefore hxs
    have hwithin : (∃ x, kind.Selects xs n (.ok x)) ↔ -(xs.length : Int) ≤ n ∧ n < xs.length := exists_selects_ok_iff
    refine ⟨⟨result, hselects, houtcome⟩, hwithin, fun hdata => ?_⟩
    have hitem (v : Value) (hv : result = .ok (.element v)) : v.isData := by
      subst hv
      exact hdata v hselects.mem
    rw [houtcome, answer_eq_ok hitem, ← hwithin]
    refine exists_congr fun x => ⟨?_, fun hx => hselects.unique hx⟩
    rintro rfl
    exact hselects
  · rintro x ys rfl
    have hfirst {room : Nat} : first.call settings room [kind.value id] s = x.give s := call_first hxs
    refine ⟨.front (Int.le_refl 0) rfl, hfirst, fun w h => ?_, call_rest hxs, takesOff_of_splits hxs .pop⟩
    rw [outcome_of_applies_builtin h]
    exact bind_congr hfirst fun _ _ _ => rfl
  · rintro x ys rfl
    have hlast : (ys ++ [x])[((ys ++ [x]).length + -1 : Int).toNat]? = some x := by simp
    exact ⟨.back (by decide) (by simp) hlast, takesOff_of_splits hxs .removeLast⟩
  · exact ⟨push_undoneBy_pop hxs hkind hv, append_undoneBy_removeLast hxs hkind hv⟩

/-- Beside the string of two letters there is one of a single letter, which can be put on at either end. -/
theorem threeLetters_agree_at_both_ends :
    (twoLetters.addText ['c']).items? .string 0 = some [.character 'a', .character 'b'] ∧
    first.call ⟨.null, .flat, 9, 9⟩ 9 [.str 0] (twoLetters.addText ['c']) =
      (Item.character 'a').give (twoLetters.addText ['c']) ∧
    removeLast.TakesOff ⟨.null, .flat, 9, 9⟩ 9 .string 0 (twoLetters.addText ['c']) (.character 'b') [.character 'a'] ∧
    append.UndoneBy ⟨.null, .flat, 9, 9⟩ 9 .removeLast .string 0 (.str 1) (twoLetters.addText ['c']) (.character 'c')
      [.character 'a', .character 'b', .character 'c'] [.character 'a', .character 'b'] := by
  have hitems : (twoLetters.addText ['c']).items? .string 0 = some [.character 'a', .character 'b'] := by cbv
  have hletter : (Item.character 'c').ShownBy (twoLetters.addText ['c']) (.str 1) := ⟨1, rfl, by cbv⟩
  obtain ⟨-, hfront, hback, hmore⟩ := sequences_agree_at_both_ends ⟨.null, .flat, 9, 9⟩ 9 hitems
  exact ⟨hitems, (hfront _ _ rfl).2.1, (hback (.character 'b') [.character 'a'] rfl).2,
    (hmore (.character 'c') (.str 1) rfl hletter).2⟩

end Eval
end Scriptlet
