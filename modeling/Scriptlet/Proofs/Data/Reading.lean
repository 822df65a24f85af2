import Scriptlet.Proofs.Data.Datum
import Scriptlet.Eval.Basic
import Scriptlet.Proofs.Evaluation.Visits
import Scriptlet.Proofs.Parsing.RoundTrip

/-! Reading data back from their texts.  The text of a datum is a program of one expression, whose value is the datum
again: a negative integer comes back as a minus before a literal, and null as a name that is not bound. -/
namespace Scriptlet

namespace Datum
open Grammar Token

/-- The expression that the text of a datum writes. -/
def node : Datum → Node
  | int n => if n < 0 then .prefixOp .minus (.int (-n)) else .int n
  | bool b => .bool b
  | null => .ident "null"
  | str t => .str t
  | arr items => .array (items.map node)

variable {d : Datum}

theorem text_ofNat (n : Nat) : (int (.ofNat n)).text.toList = Nat.toDigits 10 n := by
  rw [text]
  exact Nat.toList_repr

theorem text_negSucc (n : Nat) : (int (.negSucc n)).text.toList = '-' :: Nat.toDigits 10 (n + 1) := by
  simp [text, Int.toString_eq_repr, Int.repr]

theorem renders_ofNat {n : Nat} (hn : n ≤ 2147483647) :
    Renders (.expression .chain (int (.ofNat n)).node) (int (.ofNat n)).text.toList := by
  have hnode : (int (.ofNat n)).node = .int n := by simp [node]
  rw [text_ofNat, hnode]
  exact renders_int hn

theorem renders_negSucc {n : Nat} (hn : n + 1 ≤ 2147483647) :
    Renders (.expression .signed (int (.negSucc n)).node) (int (.negSucc n)).text.toList := by
  obtain ⟨w, hyields, hwrites⟩ := renders_int hn
  have hnode : (int (.negSucc n)).node = .prefixOp .minus (.int (n + 1 : Nat)) := by
    rw [node, if_pos (Int.negSucc_lt_zero n), Int.neg_negSucc]
  obtain ⟨c, cs, hcs, hminus, -⟩ := opens_int (n + 1)
  have hspells : Spells ⟨.minus, .singleton '-'⟩ ['-'] (· = '-') := .alone (e := ⟨.minus, '-', .decrement⟩) rfl
  rw [text_negSucc, hnode]
  refine ⟨_, .sign (t := ⟨.minus, .singleton '-'⟩) (by decide) (.lift hyields), ?_⟩
  rw [hcs] at hwrites ⊢
  exact .cons hspells (decide_eq_false hminus) hwrites

/-- No sign stands before another one, so the text of a datum is that of an operand. -/
theorem Plain.renders (h : d.Plain) : Renders (.expression .signed d.node) d.text.toList := by
  have of_chain {e : Node} {cs : List Char} (h : Renders (.expression .chain e) cs) :
      Renders (.expression .signed e) cs := by
    obtain ⟨w, hyields, hwrites⟩ := h
    exact ⟨w, .lift hyields, hwrites⟩
  induction h with
  | @int n hmin hmax =>
    cases n with
    | ofNat n => exact of_chain (renders_ofNat (by simp only [Int.ofNat_eq_natCast] at hmax; omega))
    | negSucc n => exact renders_negSucc (by omega)
  | @bool b => exact of_chain (by simpa [node, text, Node.text] using renders_bool b)
  | null => exact of_chain (by simpa [node, text] using renders_ident (x := "null") ⟨by decide, by decide⟩)
  | str ht => exact of_chain (by simpa [node, text] using renders_str ht)
  | @arr items _ ih =>
    have hitems : Renders (.items ((items.map node).map (.expression .comparison)))
        (List.intercalate [','] (items.map (·.text.toList))) := by
      rw [List.map_map]
      refine renders_items fun d hd => ?_
      obtain ⟨w, hyields, hwrites⟩ := ih d hd
      exact ⟨w, hyields.weaken (by decide), hwrites⟩
    exact of_chain (by simpa [node, text, Function.comp_def] using renders_array hitems)

theorem Plain.trim_text (h : d.Plain) : Text.trim d.text.toList = d.text.toList := by
  have of_forall {cs : List Char} (hcs : ∀ c ∈ cs, Text.isBlank c = false) : Text.trim cs = cs :=
    Text.trim_eq_self (fun c hc => hcs c (List.mem_of_mem_head? hc)) fun c hc => hcs c (List.mem_of_getLast? hc)
  have digits (n : Nat) : ∀ c ∈ Nat.toDigits 10 n, Text.isBlank c = false :=
    fun c hc => isBlank_eq_false_of_isDigit (isDigit_of_ascii (isDigit_of_mem_toDigits hc))
  cases h with
  | @int n _ _ =>
    cases n with
    | ofNat n =>
      rw [text_ofNat]
      exact of_forall (digits n)
    | negSucc n =>
      rw [text_negSucc]
      exact of_forall (List.forall_mem_cons.mpr ⟨by decide, digits (n + 1)⟩)
  | @bool b => cases b <;> exact of_forall (by simp [text]; decide)
  | null => exact of_forall (by simp [text]; decide)
  | @str t _ =>
    have htext : (Datum.str t).text.toList = '"' :: (t.toList ++ ['"']) := by simp [text]
    rw [htext, Text.trim_enclosed (by decide) (by decide)]
  | @arr items _ =>
    have htext : (Datum.arr items).text.toList = '[' :: ((",".intercalate (items.map text)).toList ++ [']']) := by
      simp [text]
    rw [htext, Text.trim_enclosed (by decide) (by decide)]

theorem Plain.parse_text (h : d.Plain) : Program.parse d.text = .ok (.program [.exprStmt d.node]) := by
  obtain ⟨w, hyields, hwrites⟩ := h.renders
  have hstatement : Yields (.statement (.exprStmt d.node)) w := .exprStmt (hyields.weaken (by decide))
  have hprogram : Yields (.program (.program [.exprStmt d.node])) (w ++ []) :=
    .program (.moreStatements hstatement .noStatements (by simp))
  have htokens : ofSource d.text.toList = w ++ [] := by
    rw [ofSource, h.trim_text, hwrites.tokens_eq, List.append_nil]
  rw [← htokens] at hprogram
  exact (parse_eq_ok_iff_yields _ _).mpr hprogram

end Datum

namespace Eval
open Run

variable {settings : Settings} {frames : Nat} {E : ScopeId} {s : State} {d : Datum}

theorem lookup_of_empty (h : s.scopes[E]? = some ⟨none, []⟩) (name : String) : s.lookup E name = .null := by
  simp [State.lookup, State.find?, h, Table.get?]

/-- The value of a part of a datum shows this part, and giving it does nothing but to add objects. -/
def ReadsBack (r : Run Value) (d : Datum) (s : State) : Prop :=
  ∃ v s', r s = (.ok v, s') ∧ s'.Shows v d ∧ s.Added s'

theorem readsBack_of_pure {v : Value} (h : s.Shows v d) : ReadsBack (pure v) d s :=
  ⟨v, s, rfl, h, .refl s⟩

theorem each_readsBack {step : Node → Run Value} {items : List Datum} (hE : s.scopes[E]? = some ⟨none, []⟩)
    (h : ∀ d ∈ items, ∀ s : State, s.scopes[E]? = some ⟨none, []⟩ → ReadsBack (step d.node) d s) :
    ∃ vs s', each step (items.map Datum.node) s = (.ok vs, s') ∧ List.Forall₂ s'.Shows vs items ∧ s.Added s' := by
  induction items generalizing s with
  | nil => exact ⟨[], s, rfl, .nil, .refl s⟩
  | cons d items ih =>
    obtain ⟨v, s₁, hstep, hv, hadded⟩ := h d List.mem_cons_self s hE
    have hE₁ : s₁.scopes[E]? = some ⟨none, []⟩ := hadded.scopes ▸ hE
    obtain ⟨vs, s₂, hrest, hvs, hmore⟩ := ih hE₁ fun d hd => h d (List.mem_cons_of_mem _ hd)
    exact ⟨v :: vs, s₂, each_cons_of_ok hstep hrest, .cons (hmore.shows hv) hvs, hadded.trans hmore⟩

theorem readsBack_int {n : Int} (hmin : -2147483648 < n) (hmax : n < 2147483648)
    (hframes : (Datum.int n).node.frames settings.stack.evaluating ≤ frames) :
    ReadsBack (eval settings frames E (Datum.int n).node) (.int n) s := by
  rw [eval_of_fits (fits_of_frames_le hframes)]
  by_cases hn : n < 0
  · have hnode : (Datum.int n).node = .prefixOp .minus (.int (-n)) := by rw [Datum.node, if_pos hn]
    rw [hnode] at hframes ⊢
    have hliteral : inside settings frames (.prefixOp .minus (.int (-n))) E (.int (-n)) s = (.ok (.int (-n)), s) :=
      congrFun (eval_of_fits (fits_of_frames_le (frames_le_framesFor hframes (List.mem_singleton_self _)))) s
    have hwrap : wrap (- -n) = n := by
      unfold wrap
      omega
    refine ⟨.int n, s, (bind_of_ok hliteral).trans ?_, .int, .refl s⟩
    show (Except.ok (Value.int (wrap (- -n))), s) = _
    rw [hwrap]
  · have hnode : (Datum.int n).node = .int n := by rw [Datum.node, if_neg hn]
    rw [hnode]
    exact readsBack_of_pure .int

/-- The expression that the text of a datum writes has this datum as its value. -/
theorem readsBack_node (hd : d.Plain) (hframes : d.node.frames settings.stack.evaluating ≤ frames)
    (hE : s.scopes[E]? = some ⟨none, []⟩) : ReadsBack (eval settings frames E d.node) d s := by
  induction hd generalizing frames s with
  | int hmin hmax => exact readsBack_int hmin hmax hframes
  | bool =>
    rw [eval_of_fits (fits_of_frames_le hframes), Datum.node]
    exact readsBack_of_pure .bool
  | null =>
    rw [eval_of_fits (fits_of_frames_le hframes), Datum.node]
    have hlook : look (·.lookup E "null") s = (.ok .null, s) := by rw [look, lookup_of_empty hE]
    have hident : ident E "null" s = (.ok .null, s) := bind_of_ok hlook
    exact ⟨.null, s, hident, .null, .refl s⟩
  | @str t _ =>
    rw [eval_of_fits (fits_of_frames_le hframes), Datum.node]
    refine ⟨.str s.strings.size, s.addString t, rfl, .str ?_, .addString s t⟩
    simp [State.addString]
  | @arr items _ ih =>
    rw [eval_of_fits (fits_of_frames_le hframes)]
    rw [Datum.node] at hframes ⊢
    have hitems (d : Datum) (hd : d ∈ items) (s : State) (hE : s.scopes[E]? = some ⟨none, []⟩) :
        ReadsBack (inside settings frames (.array (items.map Datum.node)) E d.node) d s :=
      ih d hd (frames_le_framesFor hframes (List.mem_map_of_mem hd)) hE
    obtain ⟨vs, s', heach, hvs, hadded⟩ := each_readsBack hE hitems
    have hmore := State.Added.addArray s' vs
    have hshown : List.Forall₂ (s'.addArray vs).Shows vs items := hvs.imp fun _ _ hv => hmore.shows hv
    refine ⟨.arr s'.arrays.size, s'.addArray vs, bind_of_ok heach, .of_forall₂ ?_ hshown, hadded.trans hmore⟩
    simp [State.addArray]

/-- Printing data and reading them back gives the same data again.  The text of a value that is plain data is a program,
and run where nothing is bound this program has as its value the same data, prints nothing and binds nothing, if there
are the frames that its evaluation takes. -/
theorem data_texts_read_back {s : State} {v : Value} {d : Datum} (hd : d.Plain) (hv : s.Shows v d) :
    ∃ text program, s.text? v = some text ∧ Program.parse text = .ok program ∧
      ∀ (settings : Settings) (E : ScopeId) (s₁ : State), program.frames settings.stack.evaluating ≤ settings.frames →
        s₁.scopes[E]? = some ⟨none, []⟩ →
        ∃ v' s₂, run settings E program s₁ = (.value v', s₂) ∧ s₂.Shows v' d ∧ s₂.printed = s₁.printed ∧
          s₂.scopes = s₁.scopes := by
  refine ⟨d.text, _, hv.text?_eq, hd.parse_text, fun settings E s₁ hframes hE => ?_⟩
  have hstmt := frames_le_framesFor hframes (List.mem_singleton_self (Node.exprStmt d.node))
  have hnode := frames_le_framesFor hstmt (List.mem_singleton_self d.node)
  obtain ⟨v', s₂, heval, hv', hadded⟩ := readsBack_node hd hnode hE
  have hlast : inOrder (inside settings settings.frames (.program [.exprStmt d.node]) E) .null [.exprStmt d.node] s₁ =
      (.ok v', s₂) :=
    bind_of_ok ((congrFun (eval_of_fits (fits_of_frames_le hstmt)) s₁).trans heval)
  have hprogram : eval settings settings.frames E (.program [.exprStmt d.node]) s₁ = (.ok v', s₂) := by
    rw [eval_of_fits (fits_of_frames_le hframes)]
    show endReturn (inOrder (inside settings settings.frames _ E) .null [.exprStmt d.node]) s₁ = _
    rw [endReturn, hlast]
  refine ⟨v', s₂, ?_, hv', hadded.printed, hadded.scopes⟩
  rw [run, hprogram]

def mixedRow : Datum := .arr [.int (-5), .null, .str "] b"]

def pairOfRows : Datum := .arr [mixedRow, mixedRow]

def sharingRows : State := ⟨#["] b"], #[[.int (-5), .null, .str 0], [.arr 0, .arr 0]], #[], ""⟩

theorem pairOfRows_reads_back :
    pairOfRows.Plain ∧ sharingRows.Shows (.arr 1) pairOfRows ∧
      State.initial.scopes[State.globalScope]? = some ⟨none, []⟩ ∧
      ∃ text program v' s₂, sharingRows.text? (.arr 1) = some text ∧ Program.parse text = .ok program ∧
        program.frames Stack.usual.evaluating ≤ 100 ∧
        run ⟨.null, .usual, 100, 9⟩ State.globalScope program .initial = (.value v', s₂) ∧ s₂.Shows v' pairOfRows ∧
        s₂.printed = "" ∧ s₂.scopes = State.initial.scopes := by
  have hrow : mixedRow.Plain := by
    refine .arr fun d hd => ?_
    simp only [List.mem_cons, List.not_mem_nil, or_false] at hd
    rcases hd with rfl | rfl | rfl
    · exact .int (by decide) (by decide)
    · exact .null
    · exact .str (by decide)
  have hplain : pairOfRows.Plain := by
    refine .arr fun d hd => ?_
    simp only [List.mem_cons, List.not_mem_nil, or_false, or_self] at hd
    exact hd ▸ hrow
  have hitems : sharingRows.Shows (.arr 0) mixedRow :=
    .of_forall₂ rfl (.cons .int (.cons .null (.cons (.str rfl) .nil)))
  have hshows : sharingRows.Shows (.arr 1) pairOfRows := .of_forall₂ rfl (.cons hitems (.cons hitems .nil))
  have hempty : State.initial.scopes[State.globalScope]? = some ⟨none, []⟩ := rfl
  obtain ⟨text, program, htext, hparse, hrun⟩ := data_texts_read_back hplain hshows
  have hframes : program.frames Stack.usual.evaluating ≤ 100 := by
    obtain rfl := Option.some.inj (hshows.text?_eq.symm.trans htext)
    obtain rfl := Except.ok.inj (hplain.parse_text.symm.trans hparse)
    cbv
  obtain ⟨v', s₂, hvalue, hsame, hprinted, hscopes⟩ :=
    hrun ⟨.null, .usual, 100, 9⟩ State.globalScope .initial hframes hempty
  exact ⟨hplain, hshows, hempty, text, program, v', s₂, htext, hparse, hframes, hvalue, hsame, hprinted, hscopes⟩

end Eval
end Scriptlet
