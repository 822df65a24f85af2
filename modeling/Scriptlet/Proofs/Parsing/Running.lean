import Scriptlet.Proofs.Parsing.Unbounded

/-! The parser that runs, beside attempts.  It comes to the same end at the same place, unless the call stack is full; if it
gives up it has recorded the cause, once, and otherwise nothing. -/
namespace Scriptlet
namespace Parser
open Attempt

/-- What becomes of a parser that has recorded `errors` so far, and what becomes of an attempt.  If `limited`, the bound on
nesting may have been met. -/
inductive Follows {α : Type} (limited : Prop) (room : Option Room) (errors : List Entry) :
    Ending α × Progress → Except Refusal (α × Cursor) → Prop
  | read (a : α) (c : Cursor) : Follows limited room errors (.read a, ⟨c, errors⟩) (.ok (a, c))
  | gaveUp (e : ParseError) (c : Cursor) :
    Follows limited room errors (.gaveUp, ⟨c, errors ++ [.construct e]⟩) (.error ⟨some e, c⟩)
  | full (hroom : room ≠ none) (c : Cursor) (r : Except Refusal (α × Cursor)) :
    Follows limited room errors (.exhausted, ⟨c, errors⟩) r
  | nested (hlimited : limited) (c : Cursor) :
    Follows limited room errors (.exhausted, ⟨c, errors⟩) (.error ⟨none, c⟩)

/-- A parser follows an attempt from every place, whatever was recorded before and with any room. -/
def Runs {α : Type} (limited : Prop) (p : Parser α) (q : Attempt α) : Prop :=
  ∀ room s, Follows limited room s.errors (p room s) (q s.place)

variable {α β : Type} {limited : Prop} {p p' : Parser α} {q q' : Attempt α}

theorem runs_pure {a : α} : Runs limited (pure a) (pure a) := fun _ s => .read a s.place

theorem runs_fail {e : ParseError} : Runs limited (fail e : Parser α) (fail e) := fun _ s => .gaveUp e s.place

theorem runs_exhaust (hlimited : limited) : Runs limited (exhaust : Parser α) exhaust := fun _ s =>
  .nested hlimited s.place

theorem runs_advance : Runs limited (advance : Parser Unit) advance := fun _ s => .read () s.place.toInput.advance

theorem Runs.bind {f : α → Parser β} {g : α → Attempt β} (h : Runs limited p q) (hf : ∀ a, Runs limited (f a) (g a)) :
    Runs limited (p >>= f) (q >>= g) := by
  intro room s
  have hp := h room s
  show Follows limited room s.errors (Parser.bind p f room s) ((q >>= g) s.place)
  simp only [Parser.bind, Bind.bind]
  generalize p room s = r at hp ⊢
  generalize q s.place = r' at hp ⊢
  cases hp with
  | read a c => exact hf a room ⟨c, s.errors⟩
  | gaveUp e c => exact .gaveUp e c
  | full hroom c r => exact .full hroom c _
  | nested hlimited c => exact .nested hlimited c

theorem runs_current_bind {f : Token → Parser α} {g : Token → Attempt α} (h : ∀ t, Runs limited (f t) (g t)) :
    Runs limited (current >>= f) (current >>= g) := fun room s => h s.place.current room s

theorem runs_peek_bind {f : Token → Parser α} {g : Token → Attempt α} (h : ∀ t, Runs limited (f t) (g t)) :
    Runs limited (peek >>= f) (peek >>= g) := fun room s => h s.place.peek room s

theorem runs_withAhead {f : Nat → Parser α} {g : Nat → Attempt α} (h : ∀ k, Runs limited (f k) (g k)) :
    Runs limited (withAhead f) (withAhead g) := fun room s => h s.place.ahead.length room s

theorem runs_ite {P : Prop} [Decidable P] (h : Runs limited p q) (h' : Runs limited p' q') :
    Runs limited (if P then p else p') (if P then q else q') := by
  split
  · exact h
  · exact h'

theorem Follows.in_room {room : Room} {left : Option Room} {errors : List Entry} {r : Ending α × Progress}
    {r' : Except Refusal (α × Cursor)} (h : Follows limited left errors r r') :
    Follows limited (some room) errors r r' := by
  cases h with
  | read a c => exact .read a c
  | gaveUp e c => exact .gaveUp e c
  | full _ c => exact .full (Option.some_ne_none room) c _
  | nested hlimited c => exact .nested hlimited c

/-- What is part of a task is not done at all if there is no room for it. -/
theorem Runs.within {task : Task} (h : Runs limited p q) : Runs limited (within task p) q := by
  intro room s
  cases room with
  | none => exact h none s
  | some room =>
    cases hleft : room.take? task with
    | none =>
      simp only [Steps.within, hleft]
      exact .full (Option.some_ne_none room) s.place _
    | some left =>
      simp only [Steps.within, hleft]
      exact (h (some left) s).in_room

theorem runs_expect (kind : Kind) : Runs limited (expect kind) (expect kind) :=
  runs_current_bind fun _ => runs_ite runs_pure runs_fail

theorem runs_take (kind : Kind) : Runs limited (take kind) (take kind) :=
  .bind runs_advance fun _ => runs_expect kind

theorem runs_name : Runs limited name name :=
  .bind (runs_expect .identifier) fun _ => runs_current_bind fun _ => runs_pure

theorem runs_moreItems (h : Runs limited p q) (k : Nat) : Runs limited (moreItems p k) (moreItems q k) := by
  induction k with
  | zero => exact runs_pure
  | succ k ih =>
    exact runs_peek_bind fun _ => runs_ite
      (.bind runs_advance fun _ => .bind runs_advance fun _ => .bind h fun _ => .bind ih fun _ => runs_pure) runs_pure

theorem runs_items (h : Runs limited p q) (closing : Kind) : Runs limited (items closing p) (items closing q) :=
  runs_peek_bind fun _ => runs_ite (.bind (runs_take closing) fun _ => runs_pure)
    (.bind runs_advance fun _ => .bind h fun _ => .bind (runs_withAhead (runs_moreItems h)) fun _ =>
      .bind (runs_take closing) fun _ => runs_pure)

section
variable {inner : Part → Parser Node} {inner' : Part → Attempt Node}
  (hinner : ∀ part, Runs limited (inner part) (inner' part))
include hinner

theorem runs_inside (site : Site) (part : Part) : Runs limited (inside inner site part) (inside inner' site part) :=
  (hinner part).within

theorem runs_condition : Runs limited (condition inner) (condition inner') :=
  .bind (runs_take .lparen) fun _ => .bind runs_advance fun _ => .bind (runs_inside hinner _ _) fun _ =>
    .bind (runs_take .rparen) fun _ => runs_pure

theorem runs_prefixed (op : Operator) : Runs limited (prefixed inner op) (prefixed inner' op) :=
  .bind runs_advance fun _ => .bind (runs_inside hinner _ _) fun _ => runs_pure

theorem runs_grouped : Runs limited (grouped inner) (grouped inner') :=
  .bind runs_advance fun _ => .bind (runs_inside hinner _ _) fun _ => .bind (runs_take .rparen) fun _ => runs_pure

theorem runs_conditional : Runs limited (conditional inner) (conditional inner') :=
  .bind (runs_condition hinner) fun _ => .bind runs_advance fun _ => .bind (runs_inside hinner _ _) fun _ =>
    runs_peek_bind fun _ => runs_ite
      (.bind runs_advance fun _ => .bind runs_advance fun _ => .bind (runs_inside hinner _ _) fun _ => runs_pure)
      runs_pure

theorem runs_function : Runs limited (function inner) (function inner') :=
  .bind (runs_take .lparen) fun _ => .bind (runs_items runs_name .rparen) fun _ => .bind runs_advance fun _ =>
    .bind (runs_inside hinner _ _) fun _ => runs_pure

theorem runs_array : Runs limited (array inner) (array inner') :=
  .bind (runs_items (runs_inside hinner _ _) .rsquare) fun _ => runs_pure

theorem runs_primary : Runs limited (primary inner) (primary inner') := by
  refine runs_current_bind fun t => ?_
  cases t.kind
  case int =>
    dsimp only
    cases integer? t.lexeme with
    | some n => exact runs_pure
    | none => exact runs_fail
  case string | trueWord | falseWord | identifier => exact runs_pure
  case minus | neg => exact runs_prefixed hinner _
  case lparen => exact runs_grouped hinner
  case ifWord => exact runs_conditional hinner
  case fnWord => exact runs_function hinner
  case lsquare => exact runs_array hinner
  all_goals exact runs_fail

theorem runs_extend (left : Node) (suffix : Suffix) :
    Runs limited (extend inner left suffix) (extend inner' left suffix) := by
  cases suffix with
  | binary op strength => exact .bind runs_advance fun _ => .bind (runs_inside hinner _ _) fun _ => runs_pure
  | closing op => exact runs_pure
  | call => exact runs_ite (.bind (runs_items (runs_inside hinner _ _) .rparen) fun _ => runs_pure) runs_fail.within
  | index =>
    exact runs_ite (.bind runs_advance fun _ => .bind (runs_inside hinner _ _) fun _ =>
      .bind (runs_take .rsquare) fun _ => runs_pure) runs_fail.within

theorem runs_suffixes (floor : Strength) (k : Nat) (left : Node) :
    Runs limited (suffixes inner floor k left) (suffixes inner' floor k left) := by
  induction k generalizing left with
  | zero => exact runs_pure
  | succ k ih =>
    refine runs_peek_bind fun t => ?_
    cases Suffix.ofKind? t.kind with
    | none => exact runs_pure
    | some suffix =>
      exact runs_ite (.bind runs_advance fun _ => .bind (runs_extend hinner left suffix) fun longer => ih longer) runs_pure

theorem runs_expression (floor : Strength) : Runs limited (expression inner floor) (expression inner' floor) :=
  .bind (runs_primary hinner) fun _ => runs_withAhead fun k => runs_suffixes hinner floor k _

theorem runs_letStatement : Runs limited (letStatement inner) (letStatement inner') :=
  .bind runs_advance fun _ => .bind runs_name fun _ => .bind (runs_take .assign) fun _ => .bind runs_advance fun _ =>
    .bind (runs_inside hinner _ _) fun _ => runs_pure

theorem runs_returnStatement : Runs limited (returnStatement inner) (returnStatement inner') :=
  .bind runs_advance fun _ => .bind (runs_inside hinner _ _) fun _ => runs_pure

theorem runs_whileStatement : Runs limited (whileStatement inner) (whileStatement inner') :=
  .bind (runs_condition hinner).within fun _ => .bind runs_advance fun _ => .bind (runs_inside hinner _ _) fun _ =>
    runs_pure

theorem runs_statement : Runs limited (statement inner) (statement inner') := by
  refine runs_current_bind fun t => ?_
  cases t.kind
  case letWord => exact runs_letStatement hinner
  case returnWord => exact runs_returnStatement hinner
  case whileWord => exact runs_whileStatement hinner
  all_goals exact .bind (runs_expression hinner .lowest).within fun _ => runs_pure

theorem runs_statements (k : Nat) : Runs limited (statements inner k) (statements inner' k) := by
  induction k with
  | zero => exact runs_pure
  | succ k ih =>
    exact runs_current_bind fun _ => runs_ite runs_pure
      (.bind (runs_statement hinner) fun _ => .bind runs_advance fun _ => .bind ih fun _ => runs_pure)

theorem runs_block : Runs limited (block inner) (block inner') :=
  .bind (runs_expect .lbrace) fun _ => .bind runs_advance fun _ =>
    .bind (runs_withAhead fun k => runs_statements hinner (k + 1)) fun _ => .bind (runs_expect .rbrace) fun _ => runs_pure

end

theorem runs_part (k : Nat) (part : Part) : Runs True (Parser.part k part) (Parser.part k part) := by
  induction k generalizing part with
  | zero => exact runs_exhaust trivial
  | succ k ih =>
    cases part with
    | expression floor => exact runs_current_bind fun _ => (runs_expression ih floor).within
    | block => exact runs_current_bind fun _ => (runs_block ih).within

theorem follows_of_steady {p : Parser α} {q : Attempt α} (h : Runs True p q) {room : Option Room} {s : Progress}
    {exit taken : Nat} {r : Except Refusal (α × Cursor)} (hsteady : SteadyAt s.place exit taken (q s.place) r) :
    Follows False room s.errors (p room s) (q s.place) := by
  have hcause {f : Refusal} (hf : q s.place = .error f) : f.cause ≠ none := (hsteady.error hf).2
  have hp := h room s
  generalize p room s = result at hp ⊢
  generalize q s.place = result' at hcause hp ⊢
  cases hp with
  | read a c => exact .read a c
  | gaveUp e c => exact .gaveUp e c
  | full hroom c => exact .full hroom c _
  | nested _ c => exact absurd rfl (hcause rfl)

/-- However deep constructs nest, there is a bound large enough. -/
theorem runs_anyPart (part : Part) : Runs False (anyPart part) (anyPart part) := fun _ s =>
  follows_of_steady (runs_part (s.place.left + 1) part) (steady_anyPart part s.place (Nat.zero_le _) (Nat.lt_succ_self _))

theorem follows_statement {m : Nat} {room : Option Room} {s : Progress} (hm : s.place.left < m) :
    Follows False room s.errors ((statement (part m) : Parser Node) room s)
      ((statement anyPart : Attempt Node) s.place) := by
  have hsteady := steady_statement steady_part_anyPart (Nat.le_succ m) s.place (Nat.zero_le _) hm
  rw [hsteady.same]
  exact follows_of_steady (runs_statement (runs_part m)) hsteady

end Parser

namespace Program
open Scriptlet.Parser Attempt
namespace Reading

/-- How reading goes on after the statements in `body`, and what becomes of the attempt to read what is ahead. -/
inductive Ends (room : Option Room) (body : List Node) (s : Progress) :
    Reading → Except Refusal (List Node × Input) → Prop
  | nothing (hpeek : s.place.peek = .eof) : Ends room body s ⟨body, s, false⟩ (.ok ([], s.place.toInput))
  | read (ss : List Node) (c : Cursor) (hreach : s.place.toInput.advance.Reaches c) (hlive : 1 ≤ c.left)
    (hpeek : c.peek = .eof) : Ends room body s ⟨body ++ ss, ⟨c, s.errors⟩, false⟩ (.ok (ss, c.toInput))
  | stopped (ss : List Node) (e : ParseError) (c : Cursor) (hreach : s.place.toInput.advance.Reaches c) :
    Ends room body s ⟨body ++ ss, ⟨c, s.errors ++ [.construct e]⟩, false⟩ (.error ⟨some e, c⟩)
  | full (hroom : room ≠ none) (ss : List Node) (c : Cursor) (o : Except Refusal (List Node × Input)) :
    Ends room body s ⟨body ++ ss, ⟨c, s.errors⟩, true⟩ o

variable {room : Option Room} {body : List Node} {s : Progress} {out : Reading} {first : Node} {c : Cursor} {m k : Nat}

theorem Ends.stopped_first {e : ParseError} (hreach : s.place.toInput.advance.Reaches c) :
    Ends room body s ⟨body, ⟨c, s.errors ++ [.construct e]⟩, false⟩ (.error ⟨some e, c⟩) := by
  have h : Ends room body s ⟨body ++ [], _, false⟩ _ := .stopped [] e c hreach
  rwa [List.append_nil] at h

theorem Ends.full_first {o : Except Refusal (List Node × Input)} (hroom : room ≠ none) :
    Ends room body s ⟨body, ⟨c, s.errors⟩, true⟩ o := by
  have h : Ends room body s ⟨body ++ [], _, true⟩ _ := .full hroom [] c o
  rwa [List.append_nil] at h

theorem Ends.cons {o : Except Refusal (List Node × Input)}
    (hs : (statement anyPart : Attempt Node) s.place.toInput.advance = .ok (first, c))
    (h : Ends room (body ++ [first]) ⟨c, s.errors⟩ out o) :
    Ends room body s out (do let (others, rest) ← o; return (first :: others, rest)) := by
  obtain ⟨hreach, hlive, -⟩ := (steadyAt_statement _).ok hs
  have hnext : s.place.toInput.advance.Reaches c.advance := hreach.trans (Cursor.reaches_advance hlive)
  have hbody (ss : List Node) : body ++ [first] ++ ss = body ++ first :: ss := by simp
  cases h with
  | nothing hpeek => exact .read [first] c hreach hlive hpeek
  | read ss d hreach' hlive' hpeek =>
    rw [hbody]
    exact .read (first :: ss) d (hnext.trans hreach') hlive' hpeek
  | stopped ss e d hreach' =>
    rw [hbody]
    exact .stopped (first :: ss) e d (hnext.trans hreach')
  | full hroom ss d =>
    rw [hbody]
    exact .full hroom (first :: ss) d _

theorem ends_statements (hm : s.place.ahead.length < m) (hk : s.place.ahead.length ≤ k) :
    Ends room body s (statements (part m) room k ⟨body, s, false⟩) (untilEnd anyPart k s.place.toInput) := by
  induction k generalizing body s with
  | zero => exact .nothing (Input.peek_of_length_ahead (Nat.le_zero.mp hk))
  | succ k ih =>
    rw [untilEnd_succ, statements]
    split
    case isTrue hpeek => exact .nothing hpeek
    case isFalse =>
      have hleft : s.place.toInput.advance.left < m :=
        Nat.lt_of_le_of_lt (Cursor.left_advance_le s.place.toInput) hm
      have hfollows : Follows False room s.errors _ ((statement anyPart : Attempt Node) _) :=
        follows_statement (s := { s with place := s.place.toInput.advance }) hleft
      generalize (statement (part m) : Parser Node) room _ = run at hfollows ⊢
      generalize hs : (statement anyPart : Attempt Node) s.place.toInput.advance = attempted at hfollows
      cases hfollows with
      | read first c =>
        have hlt := ahead_lt_of_first hs
        exact .cons hs (ih (Nat.lt_trans hlt hm) (Nat.le_of_lt_succ (Nat.lt_of_lt_of_le hlt hk)))
      | gaveUp e c => exact .stopped_first ((steadyAt_statement _).error hs).1
      | full hroom c => exact .full_first hroom
      | nested h => exact h.elim

def start (tokens : List Token) : Progress := ⟨⟨Input.ofTokens tokens, .eof⟩, []⟩

theorem ends_start (room : Option Room) {tokens : List Token} (hm : tokens.length < m) (hk : tokens.length ≤ k) :
    Ends room [] (start tokens) (statements (part m) room k ⟨[], start tokens, false⟩) (program tokens) := by
  have hprogram : program tokens = untilEnd anyPart k (Input.ofTokens tokens) :=
    (program_eq tokens).trans (dwindles_untilEnd.loop_eq_loop hk (Nat.le_refl _))
  rw [hprogram]
  exact ends_statements hm hk

theorem finish_of_end {r : Reading} (h : r.progress.place.peek = .eof) : r.finish = r := if_pos (.inr h)

theorem finish_of_exhausted {r : Reading} (h : r.exhausted = true) : r.finish = r := if_pos (.inl h)

theorem finish_of_stopped {errors : List Entry} :
    finish ⟨body, ⟨c, errors⟩, false⟩ =
      ⟨body, ⟨c, errors ++ if c.peek = .eof then [] else [.unfinished c.current c.peek]⟩, false⟩ := by
  by_cases hpeek : c.peek = .eof
  · rw [finish_of_end hpeek, if_pos hpeek, List.append_nil]
  · simp [finish, hpeek, Progress.record]

end Reading

inductive Results (room : Option Room) : Except ParseStop Node → Except Refusal (List Node × Input) → Prop
  | read (body : List Node) (rest : Input) : Results room (.ok (.program body)) (.ok (body, rest))
  | refused (e : ParseError) (c : Cursor) :
    Results room (.error (.refused ⟨c, .construct e :: if c.peek = .eof then [] else [.unfinished c.current c.peek]⟩))
      (.error ⟨some e, c⟩)
  | exhausted (hroom : room ≠ none) (o : Except Refusal (List Node × Input)) : Results room (.error .exhausted) o

theorem results_of_ends {room : Option Room} {tokens : List Token} {r : Reading}
    {o : Except Refusal (List Node × Input)} (h : Reading.Ends room [] (Reading.start tokens) r o) :
    Results room r.finish.result o := by
  cases h with
  | nothing hpeek =>
    rw [Reading.finish_of_end hpeek]
    exact .read [] _
  | read ss c _ _ hpeek =>
    rw [Reading.finish_of_end hpeek]
    exact .read ss c.toInput
  | stopped ss e c =>
    rw [Reading.finish_of_stopped]
    exact .refused e c
  | full hroom ss c =>
    rw [Reading.finish_of_exhausted rfl]
    exact .exhausted hroom _

theorem results_read (room : Option Room) (tokens : List Token) :
    Results room (read room tokens).result (program tokens) :=
  results_of_ends (Reading.ends_start room (Nat.lt_succ_self _) (Nat.le_refl _))

theorem Results.eq_or_exhausted {room : Option Room} {r r' : Except ParseStop Node}
    {o : Except Refusal (List Node × Input)} (h : Results room r o) (h' : Results none r' o) :
    r = r' ∨ room ≠ none ∧ r = .error .exhausted := by
  cases h with
  | read body rest =>
    cases h' with
    | read => exact .inl rfl
    | exhausted hroom => exact absurd rfl hroom
  | refused e c =>
    cases h' with
    | refused => exact .inl rfl
    | exhausted hroom => exact absurd rfl hroom
  | exhausted hroom => exact .inr ⟨hroom, rfl⟩

variable {tokens : List Token} {p : Node} {f : Progress}

theorem ofTokens_eq_ok :
    ofTokens tokens = .ok p ↔ ∃ body rest, program tokens = .ok (body, rest) ∧ p = .program body := by
  have h := results_read none tokens
  rw [ofTokens]
  generalize (read none tokens).result = result at h ⊢
  generalize program tokens = o at h ⊢
  cases h with
  | read body rest => simp [eq_comm]
  | refused e c => simp
  | exhausted hroom => exact absurd rfl hroom

theorem ofTokens_eq_refused : ofTokens tokens = .error (.refused f) ↔ ∃ e, program tokens = .error ⟨some e, f.place⟩ ∧
    f.errors = .construct e :: if f.place.peek = .eof then [] else [.unfinished f.place.current f.place.peek] := by
  have h := results_read none tokens
  rw [ofTokens]
  generalize (read none tokens).result = result at h ⊢
  generalize program tokens = o at h ⊢
  obtain ⟨c, errors⟩ := f
  cases h with
  | read body rest => simp
  | refused e c' =>
    simp only [Except.error.injEq, ParseStop.refused.injEq, Progress.mk.injEq, Refusal.mk.injEq, Option.some.injEq]
    refine ⟨?_, ?_⟩
    · rintro ⟨rfl, rfl⟩
      exact ⟨e, ⟨rfl, rfl⟩, rfl⟩
    · rintro ⟨_, ⟨rfl, rfl⟩, rfl⟩
      exact ⟨rfl, rfl⟩
  | exhausted hroom => exact absurd rfl hroom

theorem ofTokens_refused {e : ParseError} {c : Cursor} (h : program tokens = .error ⟨some e, c⟩) : ofTokens tokens =
    .error (.refused ⟨c, .construct e :: if c.peek = .eof then [] else [.unfinished c.current c.peek]⟩) :=
  ofTokens_eq_refused.mpr ⟨e, h, rfl⟩

/-- A limited call stack makes no other difference than that it may be exhausted. -/
theorem parseWithin_eq (room : Room) (source : String) :
    parseWithin room source = parse source ∨ parseWithin room source = .error .exhausted :=
  ((results_read (some room) _).eq_or_exhausted (results_read none _)).imp_right And.right

theorem parse_of_parseWithin {room : Room} {source : String} (h : parseWithin room source = .ok p) :
    parse source = .ok p := by
  rcases parseWithin_eq room source with heq | heq
  · exact heq.symm.trans h
  · cases heq.symm.trans h

end Program
end Scriptlet
