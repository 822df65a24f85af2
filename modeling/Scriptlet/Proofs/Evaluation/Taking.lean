import Scriptlet.Proofs.Evaluation.Lawful
import Scriptlet.Proofs.Evaluation.References

/-! What the builtin functions do to the objects of a state.  A call takes an item out of the sequence that it is given,
makes a new sequence, prints, or does nothing; so no object but the one that an item is taken out of ever changes, and
whoever holds a sequence that was made anew holds it alone. -/
namespace Scriptlet
namespace State

/-- From `s` to `s'` the texts and arrays in `P` keep their contents, and all scopes are as they were. -/
structure Spares (P : Ref → Prop) (s s' : State) : Prop where
  texts {id : TextId} {cs : List Char} : P (.text id) → s.texts[id]? = some cs → s'.texts[id]? = some cs
  arrays {id : ArrayId} {vs : List Value} : P (.array id) → s.arrays[id]? = some vs → s'.arrays[id]? = some vs
  scopes : s'.scopes = s.scopes

namespace Spares
variable {P Q : Ref → Prop} {s s' s'' : State}

theorem refl (P : Ref → Prop) (s : State) : Spares P s s := ⟨fun _ => id, fun _ => id, rfl⟩

theorem trans (h : Spares P s s') (h' : Spares P s' s'') : Spares P s s'' where
  texts hP hcs := h'.texts hP (h.texts hP hcs)
  arrays hP hvs := h'.arrays hP (h.arrays hP hvs)
  scopes := h'.scopes.trans h.scopes

theorem mono (h : Spares P s s') (hP : ∀ r, Q r → P r) : Spares Q s s' :=
  ⟨fun hQ => h.texts (hP _ hQ), fun hQ => h.arrays (hP _ hQ), h.scopes⟩

theorem addText (P : Ref → Prop) (s : State) (cs : List Char) : Spares P s (s.addText cs) where
  texts {id _} _ hcs := by
    have hlt : id < s.texts.size := (Array.getElem?_eq_some_iff.mp hcs).1
    rwa [texts_addText, Array.getElem?_push, if_neg (Nat.ne_of_lt hlt)]
  arrays _ hvs := hvs
  scopes := rfl

theorem addArray (P : Ref → Prop) (s : State) (vs : List Value) : Spares P s (s.addArray vs) where
  texts _ hcs := hcs
  arrays {id _} _ hvs := by
    have hlt : id < s.arrays.size := (Array.getElem?_eq_some_iff.mp hvs).1
    rwa [arrays_addArray_getElem?, if_neg (Nat.ne_of_lt hlt)]
  scopes := rfl

theorem setText (s : State) (id : TextId) (cs : List Char) : Spares (· ≠ .text id) s (s.setText id cs) where
  texts {id' _} hne hcs := by
    have hid : id ≠ id' := fun heq => hne (congrArg Ref.text heq.symm)
    rwa [texts_setText, Array.getElem?_setIfInBounds_ne hid]
  arrays _ hvs := hvs
  scopes := rfl

theorem setArray (s : State) (id : ArrayId) (vs : List Value) : Spares (· ≠ .array id) s (s.setArray id vs) where
  texts _ hcs := hcs
  arrays {id' _} hne hvs := by
    have hid : id ≠ id' := fun heq => hne (congrArg Ref.array heq.symm)
    rwa [State.setArray, Array.getElem?_setIfInBounds_ne hid]
  scopes := rfl

end Spares
end State

namespace Builtin
open Run State

/-- The item that `pop` or `removeLast` takes out of a list that is not empty, and what is left of the list. -/
inductive Splits {α : Type} : Builtin → List α → α → List α → Prop
  | pop {x xs} : Splits .pop (x :: xs) x xs
  | removeLast {xs x} : Splits .removeLast (xs ++ [x]) x xs

/-- A call that takes an item out of an object: its value and the state that it leaves.  The value is the very item of an
array, and of a text a new text of one character. -/
inductive Takes (s : State) : Builtin → List Value → Ref → Value → State → Prop
  | text {b id cs c cs'} (hcs : s.texts[id]? = some cs) (hsplits : Splits b cs c cs') :
      Takes s b [.str id] (.text id) (.str s.texts.size) ((s.setText id cs').addText [c])
  | array {b id vs v vs'} (hvs : s.arrays[id]? = some vs) (hsplits : Splits b vs v vs') :
      Takes s b [.arr id] (.array id) v (s.setArray id vs')

def takers : List Builtin := [pop, removeLast]

def builders : List Builtin := [rest, push, append]

inductive Effect (s : State) (b : Builtin) (args : List Value) : Except Stop Value × State → Prop
  | taken {r v s'} (h : Takes s b args r v s') : Effect s b args (.ok v, s')
  | newText (cs : List Char) : Effect s b args (.ok (.str s.texts.size), s.addText cs)
  | newArray (vs : List Value) : Effect s b args (.ok (.arr s.arrays.size), s.addArray vs)
  | printed {result} (hb : b = .print) (text : String) :
      Effect s b args (result, { s with printed := s.printed ++ text })
  | kept {result} (hresult : b ∈ builders → ∀ v, result = .ok v → v.refs = []) : Effect s b args (result, s)

section
variable {s s' : State} {b : Builtin} {args : List Value} {settings : Settings} {onEmpty : OnEmpty} {stack : Stack}
  {room : Nat} {v : Value} {r : Ref}

theorem Splits.length_lt {α : Type} {xs xs' : List α} {x : α} (h : Splits b xs x xs') : xs'.length < xs.length := by
  cases h <;> simp

theorem splits_of_getLast? {α : Type} {xs : List α} {x : α} (h : xs.getLast? = some x) :
    Splits .removeLast xs x xs.dropLast := by
  obtain ⟨ys, rfl⟩ := List.getLast?_eq_some_iff.mp h
  rw [List.dropLast_concat]
  exact .removeLast

theorem Splits.mem_takers {α : Type} {xs xs' : List α} {x : α} (h : Splits b xs x xs') : b ∈ takers := by
  cases h <;> simp [takers]

theorem exists_splits {α : Type} {xs : List α} (hb : b ∈ takers) (hxs : xs ≠ []) : ∃ x xs', Splits b xs x xs' := by
  rcases (by simpa [takers] using hb : b = .pop ∨ b = .removeLast) with rfl | rfl
  · obtain ⟨x, xs', rfl⟩ := List.exists_cons_of_ne_nil hxs
    exact ⟨x, xs', .pop⟩
  · exact ⟨_, _, splits_of_getLast? (List.getLast?_eq_some_getLast hxs)⟩

/-- An item is taken out of the one argument, if it is a sequence that is not empty. -/
theorem exists_takes_iff : (∃ r v s', Takes s b args r v s') ↔
    b ∈ takers ∧ ∃ holder : Holder, holder.Current s ∧ args = [holder.value] ∧ holder.size ≠ 0 := by
  constructor
  · rintro ⟨r, v, s', h⟩
    cases h with
    | @text id cs c cs' hcs hsplits =>
      refine ⟨hsplits.mem_takers, .text id (String.ofList cs), by simpa [Holder.Current] using hcs, rfl, ?_⟩
      simpa [Holder.size] using Nat.ne_of_gt (Nat.zero_lt_of_lt hsplits.length_lt)
    | @array id vs _ _ hvs hsplits =>
      exact ⟨hsplits.mem_takers, .array id vs, hvs, rfl, Nat.ne_of_gt (Nat.zero_lt_of_lt hsplits.length_lt)⟩
  · rintro ⟨hb, holder, hholder, rfl, hsize⟩
    cases holder with
    | text id t =>
      have ht : t.toList ≠ [] := by simpa [Holder.size] using hsize
      obtain ⟨c, cs, hsplits⟩ := exists_splits hb ht
      exact ⟨_, _, _, .text hholder hsplits⟩
    | array id vs =>
      have hvs : vs ≠ [] := by simpa [Holder.size] using hsize
      obtain ⟨v, vs', hsplits⟩ := exists_splits hb hvs
      exact ⟨_, _, _, .array hholder hsplits⟩

theorem Takes.spares (h : Takes s b args r v s') : s.Spares (· ≠ r) s' := by
  cases h with
  | text _ _ => exact (Spares.setText _ _ _).trans (.addText _ _ _)
  | array _ _ => exact .setArray _ _ _

theorem Takes.not_spares (h : Takes s b args r v s') : ¬ s.Spares (· = r) s' := by
  intro hspares
  cases h with
  | @text id cs c cs' hcs hsplits =>
    have hlt : id < s.texts.size := (Array.getElem?_eq_some_iff.mp hcs).1
    have hleft : ((s.setText id cs').addText [c]).texts[id]? = some cs' := by
      simp [Array.getElem?_push, Nat.ne_of_lt hlt, hlt]
    have hsame : cs' = cs := Option.some.inj (hleft.symm.trans (hspares.texts rfl hcs))
    exact absurd (congrArg List.length hsame) (Nat.ne_of_lt hsplits.length_lt)
  | @array id vs _ vs' hvs hsplits =>
    have hlt : id < s.arrays.size := (Array.getElem?_eq_some_iff.mp hvs).1
    have hleft : (s.setArray id vs').arrays[id]? = some vs' := by simp [setArray, hlt]
    have hsame : vs' = vs := Option.some.inj (hleft.symm.trans (hspares.arrays rfl hvs))
    exact absurd (congrArg List.length hsame) (Nat.ne_of_lt hsplits.length_lt)

theorem setText_newText (id : TextId) (cs : List Char) (c : Char) :
    (do change (·.setText id cs); newText [c] : Run Value) s =
      (.ok (.str s.texts.size), (s.setText id cs).addText [c]) := by
  rw [size_texts]
  simp only [bind, Run.bind, change, newText, newString, addText, setText, Array.size_setIfInBounds]

theorem call_of_takes (h : Takes s b args r v s') : b.call settings room args s = (.ok v, s') := by
  cases h with
  | @text id cs c cs' hcs hsplits =>
    have hstring : string id s = (.ok (String.ofList cs), s) := string_eq_ok.mpr ⟨by simpa using hcs, rfl⟩
    cases hsplits with
    | pop =>
      refine (bind_of_ok hstring).trans ?_
      simp only [popFrom, String.toList_ofList]
      exact setText_newText id cs' c
    | removeLast =>
      refine (bind_of_ok hstring).trans ?_
      simp only [removeLastFrom, String.toList_ofList, List.getLast?_concat, List.dropLast_concat]
      exact setText_newText id cs' c
  | @array id vs _ vs' hvs hsplits =>
    have harray : array id s = (.ok vs, s) := find_eq_ok.mpr ⟨hvs, rfl⟩
    cases hsplits with
    | pop => exact bind_of_ok harray
    | removeLast =>
      refine (bind_of_ok harray).trans ?_
      simp only [removeLastFrom, List.getLast?_concat, List.dropLast_concat]
      rfl

theorem effect_error (e : EvalError) : Effect s b args ((pure (.error e) : Run Value) s) :=
  .kept fun _ v hv => by
    obtain rfl := Except.ok.inj hv
    rfl

theorem effect_null : Effect s b args ((pure .null : Run Value) s) :=
  .kept fun _ v hv => by
    obtain rfl := Except.ok.inj hv
    rfl

theorem effect_stop (why : Stop) : Effect s b args (.error why, s) := .kept fun _ v hv => by cases hv

theorem effect_newText (cs : List Char) : Effect s b args (newText cs s) := by
  have hnew : newText cs s = (.ok (.str s.texts.size), s.addText cs) := by
    rw [size_texts]
    rfl
  exact hnew ▸ .newText cs

theorem effect_newString (t : String) : Effect s b args (newString t s) := by
  rw [newString_eq_newText]
  exact effect_newText _

theorem effect_find {α : Type} {f : State → Option α} {go : α → Run Value}
    (hgo : ∀ a, f s = some a → Effect s b args (go a s)) : Effect s b args ((find f >>= go) s) := by
  rcases hfind : find f s with ⟨why | a, s'⟩
  · obtain ⟨-, -, rfl⟩ := find_eq_error.mp hfind
    rw [bind_of_error hfind]
    exact effect_stop why
  · obtain ⟨ha, rfl⟩ := find_eq_ok.mp hfind
    rw [bind_of_ok hfind]
    exact hgo a ha

theorem effect_ofEmpty {fresh : Run Value} (hfresh : Effect s b args (fresh s)) :
    Effect s b args (ofEmpty onEmpty fresh s) := by
  cases onEmpty with
  | null => exact effect_null
  | empty => exact hfresh

theorem effect_one {go : Value → Run Value} (hgo : ∀ v, args = [v] → Effect s b args (go v s)) :
    Effect s b args (one args go s) := by
  unfold one
  split
  · exact hgo _ rfl
  · exact effect_error _

theorem effect_two {go : Value → Value → Run Value} (hgo : ∀ v w, Effect s b args (go v w s)) :
    Effect s b args (two args go s) := by
  unfold two
  split
  · exact hgo _ _
  · exact effect_error _

theorem effect_onSequence {which : String} {go : Holder → Run Value}
    (hgo : ∀ holder : Holder, holder.Current s → holder.value = v → Effect s b args (go holder s)) :
    Effect s b args (onSequence which v go s) := by
  cases v with
  | str id =>
    refine effect_find fun t ht => hgo (.text id t) ?_ rfl
    rw [Holder.Current, getElem?_texts, ht, Option.map_some]
  | arr id => exact effect_find fun vs hvs => hgo (.array id vs) hvs rfl
  | _ => exact effect_error _

theorem effect_plainText {build : String → Run Value} (hbuild : ∀ t, Effect s b args (build t s)) :
    Effect s b args ((plainText stack room v >>= build) s) := by
  unfold plainText
  split
  · exact effect_find fun t _ => hbuild t
  · rcases htext : textOf stack room v s with ⟨why | t, s'⟩
    · obtain ⟨rfl, -⟩ := textOf_eq_error htext
      rw [bind_of_error htext]
      exact effect_stop why
    · obtain ⟨-, -, rfl⟩ := textOf_eq_ok.mp htext
      rw [bind_of_ok htext]
      exact hbuild t

theorem effect_printAll (vs : List Value) : Effect s .print args (printAll stack room vs s) := by
  suffices h : ∃ result text, printAll stack room vs s = (result, { s with printed := s.printed ++ text }) by
    obtain ⟨result, text, hprinted⟩ := h
    exact hprinted ▸ .printed rfl text
  induction vs generalizing s with
  | nil => exact ⟨.ok .null, "", by simp [printAll, pure]⟩
  | cons v vs ih =>
    rcases hline : textOf stack room v s with ⟨why | line, s₁⟩
    · obtain ⟨rfl, -⟩ := textOf_eq_error hline
      have hfirst : printLine stack room v s = (.error why, s) := bind_of_error hline
      exact ⟨.error why, "", by simp [printAll, bind_of_error hfirst]⟩
    · obtain ⟨-, -, rfl⟩ := textOf_eq_ok.mp hline
      have hfirst : printLine stack room v s = (.ok (), s.print line) := bind_of_ok hline
      obtain ⟨result, text, hrest⟩ := ih (s := s.print line)
      refine ⟨result, line ++ "\n" ++ text, ?_⟩
      rw [printAll, bind_of_ok hfirst, hrest]
      simp [State.print, String.append_assoc]

theorem effect_firstOf (holder : Holder) : Effect s .first args (firstOf onEmpty holder s) := by
  cases holder with
  | text id t =>
    cases ht : t.toList with
    | cons c cs =>
      simp only [firstOf, ht]
      exact effect_newText _
    | nil =>
      simp only [firstOf, ht]
      exact effect_ofEmpty (effect_newText [])
  | array id vs =>
    cases vs with
    | cons v vs => exact .kept (by simp [builders])
    | nil => exact effect_ofEmpty (.newArray [])

theorem effect_restOf (holder : Holder) : Effect s b args (restOf onEmpty holder s) := by
  cases holder with
  | text id t =>
    cases ht : t.toList with
    | cons c cs =>
      simp only [restOf, ht]
      exact effect_newText _
    | nil =>
      simp only [restOf, ht]
      exact effect_ofEmpty (effect_newText [])
  | array id vs =>
    cases vs with
    | cons v vs => exact .newArray _
    | nil => exact effect_ofEmpty (.newArray [])

theorem effect_pushOn (holder : Holder) : Effect s b args (pushOn stack room v holder s) := by
  cases holder with
  | text id t => exact effect_plainText fun u => effect_newString _
  | array id vs => exact .newArray _

theorem effect_appendTo (holder : Holder) : Effect s b args (appendTo stack room v holder s) := by
  cases holder with
  | text id t => exact effect_plainText fun u => effect_newString _
  | array id vs => exact .newArray _

theorem effect_popFrom {holder : Holder} (hholder : holder.Current s) :
    Effect s .pop [holder.value] (popFrom holder s) := by
  cases holder with
  | text id t =>
    cases ht : t.toList with
    | cons c cs =>
      rw [Holder.Current, ht] at hholder
      simp only [popFrom, ht]
      exact setText_newText id cs c ▸ .taken (.text hholder .pop)
    | nil =>
      simp only [popFrom, ht]
      exact effect_null
  | array id vs =>
    cases vs with
    | cons v vs => exact .taken (.array hholder .pop)
    | nil => exact effect_null

theorem effect_removeLastFrom {holder : Holder} (hholder : holder.Current s) :
    Effect s .removeLast [holder.value] (removeLastFrom holder s) := by
  cases holder with
  | text id t =>
    cases hlast : t.toList.getLast? with
    | some c =>
      simp only [removeLastFrom, hlast]
      exact setText_newText id _ c ▸ .taken (.text hholder (splits_of_getLast? hlast))
    | none =>
      simp only [removeLastFrom, hlast]
      exact effect_null
  | array id vs =>
    cases hlast : vs.getLast? with
    | some v =>
      simp only [removeLastFrom, hlast]
      exact .taken (.array hholder (splits_of_getLast? hlast))
    | none =>
      simp only [removeLastFrom, hlast]
      exact effect_null

theorem effect_call (settings : Settings) (room : Nat) (b : Builtin) (args : List Value) (s : State) :
    Effect s b args (b.call settings room args s) := by
  cases b with
  | print =>
    unfold call
    split
    · exact effect_error _
    · exact effect_printAll args
  | len =>
    refine effect_one fun v _ => effect_onSequence fun holder _ _ => ?_
    cases holder <;> exact .kept (by simp [builders])
  | first => exact effect_one fun v _ => effect_onSequence fun holder _ _ => effect_firstOf holder
  | rest => exact effect_one fun v _ => effect_onSequence fun holder _ _ => effect_restOf holder
  | push => exact effect_two fun v w => effect_onSequence fun holder _ _ => effect_pushOn holder
  | append => exact effect_two fun v w => effect_onSequence fun holder _ _ => effect_appendTo holder
  | pop =>
    refine effect_one fun v hargs => effect_onSequence fun holder hholder hv => ?_
    rw [hargs, ← hv]
    exact effect_popFrom hholder
  | removeLast =>
    refine effect_one fun v hargs => effect_onSequence fun holder hholder hv => ?_
    rw [hargs, ← hv]
    exact effect_removeLastFrom hholder

section
variable {outcome : Except Stop Value × State} (h : Effect s b args outcome)
include h

theorem Effect.spares {P : Ref → Prop} (hP : ∀ r v s', Takes s b args r v s' → ¬ P r) : s.Spares P outcome.2 := by
  cases h with
  | @taken r v s' htakes =>
    refine htakes.spares.mono fun r' hr' => ?_
    rintro rfl
    exact hP _ _ _ htakes hr'
  | newText cs => exact .addText _ s cs
  | newArray vs => exact .addArray _ s vs
  | printed _ _ => exact ⟨fun _ hcs => hcs, fun _ hvs => hvs, rfl⟩
  | kept _ => exact .refl _ s

/-- A sequence that is built was not there before. -/
theorem Effect.fresh_of_builder (hb : b ∈ builders) {v : Value} {s' : State} (hok : outcome = (.ok v, s')) :
    ∀ r ∈ v.refs, ¬ s.Has r ∧ s'.Has r := by
  have hother : b ∉ .print :: takers := by
    rcases (by simpa [builders] using hb : b = .rest ∨ b = .push ∨ b = .append) with rfl | rfl | rfl <;> simp [takers]
  cases h with
  | taken htakes =>
    have hmem := (exists_takes_iff.mp ⟨_, _, _, htakes⟩).1
    exact absurd (List.mem_cons_of_mem _ hmem) hother
  | newText cs =>
    obtain ⟨hv, rfl⟩ := Prod.mk.inj hok
    obtain rfl := Except.ok.inj hv
    simp [Value.refs, Has]
  | newArray vs =>
    obtain ⟨hv, rfl⟩ := Prod.mk.inj hok
    obtain rfl := Except.ok.inj hv
    simp [Value.refs, Has, State.addArray]
  | printed hprint _ => exact absurd (hprint ▸ List.mem_cons_self) hother
  | kept hresult =>
    obtain ⟨hv, rfl⟩ := Prod.mk.inj hok
    simp [hresult hb v hv]

end

/-- Taking an item out of an object that was not there before spares all that was. -/
theorem spares_of_fresh (b : Builtin) (t : State) (hfresh : ∀ r ∈ v.refs, ¬ s.Has r) :
    t.Spares s.Has (b.call settings room [v] t).2 := by
  refine (effect_call settings room b [v] t).spares fun r u t' htakes hr => ?_
  have hmem : r ∈ v.refs := by
    cases htakes <;> simp [Value.refs]
  exact hfresh r hmem hr

end

/-- A call changes an object exactly if it is one of `pop` or `removeLast` with one sequence that is not empty.  Then its
value is the first or the last item, which that sequence lacks afterwards, and no other object has changed.  What `rest`,
`push` and `append` build is none of the objects before, so whatever is taken out of it later spares all of these. -/
theorem objects_change_by_taking (settings : Settings) (room : Nat) (b : Builtin) (args : List Value) (s : State) :
    (∀ r v s', Takes s b args r v s' → b.call settings room args s = (.ok v, s') ∧ s.Spares (· ≠ r) s' ∧
      ¬ s.Spares (· = r) s') ∧
    (¬ s.Spares (fun _ => True) (b.call settings room args s).2 ↔
      b ∈ takers ∧ ∃ holder : Holder, holder.Current s ∧ args = [holder.value] ∧ holder.size ≠ 0) ∧
    ((∃ r v s', Takes s b args r v s') ↔
      b ∈ takers ∧ ∃ holder : Holder, holder.Current s ∧ args = [holder.value] ∧ holder.size ≠ 0) ∧
    (b ∈ builders → ∀ v s', b.call settings room args s = (.ok v, s') → (∀ r ∈ v.refs, ¬ s.Has r ∧ s'.Has r) ∧
      ∀ (settings' : Settings) (room' : Nat) (b' : Builtin) (t : State),
        t.Spares s.Has (b'.call settings' room' [v] t).2) := by
  refine ⟨fun r v s' h => ⟨call_of_takes h, h.spares, h.not_spares⟩, ?_, exists_takes_iff, fun hb v s' hcall => ?_⟩
  · rw [← exists_takes_iff]
    refine ⟨fun hchanged => ?_, fun ⟨r, v, s', h⟩ hspares => ?_⟩
    · refine Classical.byContradiction fun hnone => ?_
      exact hchanged ((effect_call settings room b args s).spares fun r v s' h _ => hnone ⟨r, v, s', h⟩)
    · rw [call_of_takes h] at hspares
      exact h.not_spares (hspares.mono fun _ _ => trivial)
  · have hfresh := (effect_call settings room b args s).fresh_of_builder hb hcall
    exact ⟨hfresh, fun _ _ b' t => spares_of_fresh b' t fun r hr => (hfresh r hr).1⟩

def heldTwice : State := (State.initial.addArray [.int 5, .int 6]).addArray [.arr 0, .arr 0]

/-- The first item is taken out of it, and the array that holds it is as it was. -/
theorem pop_of_heldTwice :
    Takes heldTwice .pop [.arr 0] (.array 0) (.int 5) (heldTwice.setArray 0 [.int 6]) ∧
      Builtin.pop.call ⟨.null, .flat, 9, 9⟩ 9 [.arr 0] heldTwice = (.ok (.int 5), heldTwice.setArray 0 [.int 6]) ∧
      (heldTwice.setArray 0 [.int 6]).arrays[1]? = some [.arr 0, .arr 0] := by
  have htakes : Takes heldTwice .pop [.arr 0] (.array 0) (.int 5) (heldTwice.setArray 0 [.int 6]) := .array rfl .pop
  obtain ⟨hcall, hspares, -⟩ := (objects_change_by_taking ⟨.null, .flat, 9, 9⟩ 9 .pop [.arr 0] heldTwice).1 _ _ _ htakes
  exact ⟨htakes, hcall, hspares.arrays (by decide) rfl⟩

end Builtin
end Scriptlet
