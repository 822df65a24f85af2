import Scriptlet.Proofs.Evaluation.Rendering
import Scriptlet.Proofs.Evaluation.Signals
import Scriptlet.Proofs.Parsing.Trees

/-! Builtin functions answer.  In a state whose references lead somewhere they find the sequences that their arguments
name and the texts that they print, if there is room for these, and their errors are about the call. -/
namespace Scriptlet

def EvalError.isInternal : EvalError → Bool
  | unknownNode _ | nesting | broken | given _ => true
  | _ => false

namespace Law

/-- References lead somewhere, values are data, and all nodes have rules, bodies of functions included. -/
def safe : Law := (referential.and onlyData).and (every (Value.Carries Node.Tokenless) Node.Tokenless)

theorem safe_closed : safe.Closed :=
  (referential_closed.and onlyData_closed).and
    (every_closed (makes_carries fun _ _ => Node.Everywhere.child) fun _ => trivial)

theorem safe_start : safe.Ready State.globalScope .initial :=
  (referential_start.and ⟨State.Clean.initial, trivial⟩).and ⟨State.Every.initial _, trivial⟩

theorem safe_admits {n : Node} (hn : Program.Parsed n) : safe.Admits n := by
  obtain ⟨source, hsource⟩ := hn
  exact ⟨⟨trivial, trivial⟩, Grammar.tokenless_of_parse hsource⟩

section
variable {s : State} {v : Value}

theorem safe_supports (hv : safe.Allows s v) : s.Supports v := hv.1.1

theorem safe_isData (hv : safe.Allows s v) : v.isData := hv.1.2

theorem safe_ne_error (hv : safe.Allows s v) (e : EvalError) : v ≠ .error e := by
  rintro rfl
  have hdata := safe_isData hv
  cases hdata

end

end Law

namespace Run
variable {α β : Type} {P : Prop} {Q : State → α → Prop} {Q' : State → β → Prop} {s s' : State}

/-- A step gives a result, or finds no room for a text, which is so only if `P`. -/
def Answers (P : Prop) (Q : State → α → Prop) (s : State) (r : Run α) : Prop :=
  (∃ a s', r s = (.ok a, s') ∧ Q s' a) ∨ P ∧ ∃ s', r s = (.error .tooDeep, s')

theorem answers_of_ok {r : Run α} {a : α} (hok : r s = (.ok a, s')) (ha : Q s' a) : Answers P Q s r :=
  .inl ⟨a, s', hok, ha⟩

theorem answers_pure {a : α} (ha : Q s a) : Answers P Q s (pure a) := answers_of_ok rfl ha

theorem Answers.bind {r : Run α} {f : α → Run β} (hr : Answers P Q s r)
    (hf : ∀ a s', Q s' a → Answers P Q' s' (f a)) : Answers P Q' s (r >>= f) := by
  rcases hr with ⟨a, s₁, hok, ha⟩ | ⟨hP, s₁, hfull⟩
  · rcases hf a s₁ ha with ⟨b, s₂, hok', hb⟩ | ⟨hP, s₂, hfull⟩
    · exact answers_of_ok ((bind_of_ok hok).trans hok') hb
    · exact .inr ⟨hP, s₂, (bind_of_ok hok).trans hfull⟩
  · exact .inr ⟨hP, s₁, bind_of_error hfull⟩

theorem Answers.weaken {r : Run α} {Q' : State → α → Prop} (hr : Answers P Q s r) (hQ : ∀ s' a, Q s' a → Q' s' a) :
    Answers P Q' s r := by
  rcases hr with ⟨a, s', hok, ha⟩ | hfull
  · exact answers_of_ok hok (hQ s' a ha)
  · exact .inr hfull

theorem answers_find {f : State → Option α} (h : (f s).isSome) :
    Answers P (fun s' a => s = s' ∧ f s = some a) s (find f) := by
  obtain ⟨a, ha⟩ := Option.isSome_iff_exists.mp h
  exact answers_of_ok (find_eq_ok.mpr ⟨ha, rfl⟩) ⟨rfl, ha⟩

end Run

namespace Builtin
open Run Law

def Plain (_ : State) (v : Value) : Prop := ∀ e, v = .error e → ¬ e.isInternal

def Crowded (stack : Stack) (room : Nat) (args : List Value) (s : State) : Prop :=
  ∃ v ∈ args, ∃ frames, s.frames? stack v = some frames ∧ room < frames

section
variable {P : Prop} {s s' : State} {v : Value} {args : List Value} {holder : Holder} {settings : Settings}
  {onEmpty : OnEmpty} {stack : Stack} {room : Nat}

theorem plain_of_allows (hv : safe.Allows s v) : Plain s' v := fun e he => absurd he (safe_ne_error hv e)

theorem plain_of_isData (hv : v.isData) : Plain s v := by
  rintro e rfl
  cases hv

theorem answers_error {e : EvalError} (he : ¬ e.isInternal) : Answers P Plain s (pure (.error e)) := by
  have hplain : Plain s (.error e) := by
    intro e' heq
    cases heq
    exact he
  exact answers_pure hplain

theorem answers_newString (t : String) : Answers P Plain s (newString t) := answers_of_ok rfl (plain_of_isData rfl)

theorem answers_newText (cs : List Char) : Answers P Plain s (newText cs) := answers_newString _

theorem answers_string {id : TextId} (hid : s.Has (.text id)) :
    Answers P (fun s' t => s = s' ∧ s.texts[id]? = some t.toList) s (string id) := by
  have hlt : id < s.strings.size := s.size_texts ▸ hid
  have hstring : string id s = (.ok s.strings[id], s) := find_eq_ok.mpr ⟨by simp [hlt], rfl⟩
  exact answers_of_ok hstring ⟨rfl, (string_eq_ok.mp hstring).1⟩

theorem answers_newArray (vs : List Value) : Answers P Plain s (newArray vs) := answers_of_ok rfl (plain_of_isData rfl)

theorem answers_one {go : Value → Run Value} (hgo : ∀ v ∈ args, Answers P Plain s (go v)) :
    Answers P Plain s (one args go) := by
  unfold one
  split
  · next v => exact hgo v (by simp)
  · exact answers_error (by simp [EvalError.isInternal])

theorem answers_two {go : Value → Value → Run Value} (hgo : ∀ v ∈ args, ∀ w ∈ args, Answers P Plain s (go v w)) :
    Answers P Plain s (two args go) := by
  unfold two
  split
  · next v w => exact hgo v (by simp) w (by simp)
  · exact answers_error (by simp [EvalError.isInternal])

theorem answers_onSequence {which : String} {go : Holder → Run Value} (hv : s.Supports v)
    (hgo : ∀ holder, holder.Current s → holder.value = v → Answers P Plain s (go holder)) :
    Answers P Plain s (onSequence which v go) := by
  cases v with
  | str id =>
    refine (answers_string (hv (.text id) (by simp [Value.refs]))).bind fun t s' ht => ?_
    obtain ⟨rfl, ht⟩ := ht
    exact hgo (.text id t) ht rfl
  | arr id =>
    have hlt : id < s.arrays.size := hv (.array id) (by simp [Value.refs])
    have harray : Answers P _ s (array id) := answers_find (by simp [hlt])
    refine harray.bind fun vs s' hvs => ?_
    obtain ⟨rfl, hvs⟩ := hvs
    exact hgo (.array id vs) hvs rfl
  | _ => exact answers_error (by simp [EvalError.isInternal])

theorem answers_ofEmpty {fresh : Run Value} (hfresh : Answers P Plain s fresh) :
    Answers P Plain s (ofEmpty onEmpty fresh) := by
  cases onEmpty with
  | null => exact answers_pure (plain_of_isData rfl)
  | empty => exact hfresh

theorem answers_restOf : Answers P Plain s (restOf onEmpty holder) := by
  unfold restOf
  split
  · split
    · exact answers_newText _
    · exact answers_ofEmpty (answers_newText [])
  · exact answers_newArray _
  · exact answers_ofEmpty (answers_newArray [])

section
variable (h : safe.Holds s)
include h

theorem answers_textOf (hv : safe.Allows s v)
    (hfull : ∀ frames, s.frames? stack v = some frames → room < frames → P) :
    Answers P (fun s' _ => s = s') s (textOf stack room v) := by
  rcases (h.1.1.renders (safe_supports hv)).textOf_eq stack room with ⟨t, -, hok⟩ | ⟨⟨frames, hframes, hlt⟩, hmade⟩
  · exact answers_of_ok hok rfl
  · exact .inr ⟨hfull frames hframes hlt, s, hmade⟩

theorem answers_plainText (hv : safe.Allows s v)
    (hfull : ∀ frames, s.frames? stack v = some frames → room < frames → P) :
    Answers P (fun _ _ => True) s (plainText stack room v) := by
  unfold plainText
  split
  · next id =>
    have hid : s.Has (.text id) := safe_supports hv (.text id) (by simp [Value.refs])
    exact (answers_string hid).weaken fun _ _ _ => trivial
  · exact (answers_textOf h hv hfull).weaken fun _ _ _ => trivial

theorem answers_printAll (hargs : ∀ v ∈ args, safe.Allows s v)
    (hfull : ∀ v ∈ args, ∀ frames, s.frames? stack v = some frames → room < frames → P) :
    Answers P Plain s (printAll stack room args) := by
  induction args generalizing s with
  | nil => exact answers_pure (plain_of_isData rfl)
  | cons v args ih =>
    have hline : Answers P (fun s' _ => ∃ line, s' = s.print line) s (printLine stack room v) := by
      refine (answers_textOf h (hargs v List.mem_cons_self) (hfull v List.mem_cons_self)).bind fun line s' hs' => ?_
      exact answers_of_ok rfl ⟨line, hs' ▸ rfl⟩
    refine hline.bind fun _ s' hs' => ?_
    obtain ⟨line, rfl⟩ := hs'
    have hnext : safe.Next 0 s (s.print line) := safe_closed.print 0 line h
    refine ih hnext.1 (fun v hv => ?_) fun v hv frames hframes => ?_
    · exact safe_closed.allows_mono hnext.2 (hargs v (List.mem_cons_of_mem _ hv))
    · have harrays : (s.print line).arrays = s.arrays := rfl
      rw [State.frames?_eq_of_arrays_eq harrays] at hframes
      exact hfull v (List.mem_cons_of_mem _ hv) frames hframes

theorem answers_firstOf (hholder : holder.Current s)
    (hallows : safe.Allows s holder.value) : Answers P Plain s (firstOf onEmpty holder) := by
  unfold firstOf
  split
  · split
    · exact answers_newText _
    · exact answers_ofEmpty (answers_newText [])
  · exact answers_pure (plain_of_allows (safe_closed.element h hallows hholder List.mem_cons_self))
  · exact answers_ofEmpty (answers_newArray [])

theorem answers_pushOn (hv : safe.Allows s v)
    (hfull : ∀ frames, s.frames? stack v = some frames → room < frames → P) :
    Answers P Plain s (pushOn stack room v holder) := by
  cases holder with
  | text id t => exact (answers_plainText h hv hfull).bind fun _ _ _ => answers_newString _
  | array id vs => exact answers_newArray _

theorem answers_appendTo (hv : safe.Allows s v)
    (hfull : ∀ frames, s.frames? stack v = some frames → room < frames → P) :
    Answers P Plain s (appendTo stack room v holder) := by
  cases holder with
  | text id t => exact (answers_plainText h hv hfull).bind fun _ _ _ => answers_newString _
  | array id vs => exact answers_newArray _

theorem plain_of_element {id : ArrayId} {vs : List Value} (hid : safe.Allows s (.arr id))
    (hvs : s.arrays[id]? = some vs) (hv : v ∈ vs) : Plain s' v := plain_of_allows (safe_closed.element h hid hvs hv)

theorem answers_popFrom (hholder : holder.Current s) (hallows : safe.Allows s holder.value) :
    Answers P Plain s (popFrom holder) := by
  unfold popFrom
  split
  · split
    · exact answers_of_ok rfl (plain_of_isData rfl)
    · exact answers_pure (plain_of_isData rfl)
  · exact answers_of_ok rfl (plain_of_element h hallows hholder List.mem_cons_self)
  · exact answers_pure (plain_of_isData rfl)

theorem answers_removeLastFrom (hholder : holder.Current s) (hallows : safe.Allows s holder.value) :
    Answers P Plain s (removeLastFrom holder) := by
  cases holder with
  | text id t =>
    cases hlast : t.toList.getLast? with
    | some c =>
      simp only [removeLastFrom, hlast]
      exact answers_of_ok rfl (plain_of_isData rfl)
    | none =>
      simp only [removeLastFrom, hlast]
      exact answers_pure (plain_of_isData rfl)
  | array id vs =>
    cases hlast : vs.getLast? with
    | some v =>
      simp only [removeLastFrom, hlast]
      exact answers_of_ok rfl (plain_of_element h hallows hholder (List.mem_of_getLast? hlast))
    | none =>
      simp only [removeLastFrom, hlast]
      exact answers_pure (plain_of_isData rfl)

/-- In a safe state builtin functions answer: they find the sequences and the texts that they ask for. -/
theorem answers_call (b : Builtin) (hargs : ∀ v ∈ args, safe.Allows s v) :
    Answers (Crowded settings.stack room args s) Plain s (b.call settings room args) := by
  have hfull (v : Value) (hv : v ∈ args) (frames : Nat) (hframes : s.frames? settings.stack v = some frames)
      (hlt : room < frames) : Crowded settings.stack room args s := ⟨v, hv, frames, hframes, hlt⟩
  cases b with
  | print =>
    show Answers _ Plain s (if args.isEmpty then arity 0 ">= 1" else printAll settings.stack room args)
    split
    · exact answers_error (by simp [EvalError.isInternal])
    · exact answers_printAll h hargs hfull
  | len =>
    refine answers_one fun v hv => answers_onSequence (safe_supports (hargs v hv)) fun holder hholder hvalue => ?_
    cases holder <;> exact answers_pure (plain_of_isData rfl)
  | first =>
    refine answers_one fun v hv => answers_onSequence (safe_supports (hargs v hv)) fun holder hholder hvalue => ?_
    exact answers_firstOf h hholder (hvalue ▸ hargs v hv)
  | rest =>
    refine answers_one fun v hv => answers_onSequence (safe_supports (hargs v hv)) fun _ _ _ => ?_
    exact answers_restOf
  | push =>
    refine answers_two fun v hv w hw => answers_onSequence (safe_supports (hargs v hv)) fun _ _ _ => ?_
    exact answers_pushOn h (hargs w hw) (hfull w hw)
  | append =>
    refine answers_two fun v hv w hw => answers_onSequence (safe_supports (hargs v hv)) fun _ _ _ => ?_
    exact answers_appendTo h (hargs w hw) (hfull w hw)
  | pop =>
    refine answers_one fun v hv => answers_onSequence (safe_supports (hargs v hv)) fun holder hholder hvalue => ?_
    exact answers_popFrom h hholder (hvalue ▸ hargs v hv)
  | removeLast =>
    refine answers_one fun v hv => answers_onSequence (safe_supports (hargs v hv)) fun holder hholder hvalue => ?_
    exact answers_removeLastFrom h hholder (hvalue ▸ hargs v hv)

end

end

end Builtin

end Scriptlet
