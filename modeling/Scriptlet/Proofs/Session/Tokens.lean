import Mathlib.Algebra.Group.Nat.Even
import Scriptlet.Proofs.Session.Units
import Scriptlet.Proofs.Tokens.Joining

/-! Tokens of a file and of its units.  A line with an even number of quotes leaves no string open, so a file of such
lines has the tokens of its lines, whatever ends them, and a unit has those of the lines that it is gathered from. -/
namespace Scriptlet

namespace Text
variable {cs line : List Char} {others : List (List Char)}

theorem return_not_mem_unifyBreaks (cs : List Char) : '\r' ∉ unifyBreaks cs := by
  induction cs using unifyBreaks.induct with
  | case1 => simp [unifyBreaks]
  | case2 rest ih => simp [unifyBreaks, ih]
  | case3 rest hrest ih => simpa [unifyBreaks, hrest] using ih
  | case4 c rest hbreak hreturn ih => simpa [unifyBreaks, hreturn, ih] using fun hc => hreturn hc.symm

theorem unifyBreaks_of_not_mem (h : '\r' ∉ cs) : unifyBreaks cs = cs := by
  induction cs with
  | nil => rfl
  | cons c rest ih =>
    simp only [List.mem_cons, not_or] at h
    rw [unifyBreaks, ih h.2]
    · exact fun _ hc _ => h.1 hc.symm
    · exact fun hc => h.1 hc.symm

theorem unifyBreaks_unifyBreaks (cs : List Char) : unifyBreaks (unifyBreaks cs) = unifyBreaks cs :=
  unifyBreaks_of_not_mem (return_not_mem_unifyBreaks cs)

def breaks : List (List Char) := [['\n'], ['\r'], ['\r', '\n']]

theorem isBlank_of_mem_breaks {ending : List Char} (h : ending ∈ breaks) : ending ≠ [] ∧ ∀ c ∈ ending, isBlank c := by
  have hbreaks : ∀ ending ∈ breaks, ending ≠ [] ∧ ending.all isBlank := by decide
  exact ⟨(hbreaks ending h).1, List.all_eq_true.mp (hbreaks ending h).2⟩

theorem lines_unifyBreaks_eq_nil : lines (unifyBreaks cs) = [] ↔ cs = [] := by
  have hlines {cs : List Char} : lines cs = [] ↔ cs = [] := by
    cases cs with
    | nil => simp [lines]
    | cons c rest =>
      simp only [lines, reduceCtorEq, iff_false]
      split
      · simp
      · split <;> simp
  rw [hlines]
  cases cs using unifyBreaks.fun_cases <;> simp_all [unifyBreaks]

theorem lines_unifyBreaks_eq_cons (h : lines (unifyBreaks cs) = line :: others) :
    cs = line ∧ others = [] ∨
      ∃ ending ∈ breaks, ∃ rest, cs = line ++ (ending ++ rest) ∧ lines (unifyBreaks rest) = others := by
  induction cs using unifyBreaks.induct generalizing line with
  | case1 => simp [unifyBreaks, lines] at h
  | case2 rest _ =>
    obtain ⟨rfl, rfl⟩ : [] = line ∧ lines (unifyBreaks rest) = others := by simpa [unifyBreaks, lines] using h
    exact .inr ⟨['\r', '\n'], by simp [breaks], rest, rfl, rfl⟩
  | case3 rest hrest _ =>
    obtain ⟨rfl, rfl⟩ : [] = line ∧ lines (unifyBreaks rest) = others := by simpa [unifyBreaks, hrest, lines] using h
    exact .inr ⟨['\r'], by simp [breaks], rest, rfl, rfl⟩
  | case4 c rest hbreak hreturn ih =>
    have hunified : unifyBreaks (c :: rest) = c :: unifyBreaks rest := by rw [unifyBreaks] <;> assumption
    rw [hunified, lines] at h
    by_cases hc : c = '\n'
    · obtain ⟨rfl, rfl⟩ : [] = line ∧ lines (unifyBreaks rest) = others := by simpa [hc] using h
      exact .inr ⟨['\n'], by simp [breaks], rest, by simp [hc], rfl⟩
    · rw [if_neg hc] at h
      cases hlines : lines (unifyBreaks rest) with
      | nil =>
        obtain ⟨rfl, rfl⟩ : [c] = line ∧ [] = others := by simpa [hlines] using h
        exact .inl ⟨by rw [lines_unifyBreaks_eq_nil.mp hlines], rfl⟩
      | cons line' others' =>
        obtain ⟨rfl, rfl⟩ : c :: line' = line ∧ others' = others := by simpa [hlines] using h
        rcases ih hlines with ⟨rfl, rfl⟩ | ⟨ending, hending, rest', rfl, hothers⟩
        · exact .inl ⟨rfl, rfl⟩
        · exact .inr ⟨ending, hending, rest', rfl, hothers⟩

end Text

namespace SourceUnit
open Text Token
variable {cs : List Char} {lines group : List (List Char)}

/-- The quotes of a text are even in number exactly if it ends where it starts, inside of strings or outside. -/
theorem even_count_quote_iff (inside : Bool) (cs : List Char) :
    Even (cs.count '"') ↔ endsInside inside cs = inside := by
  induction cs generalizing inside with
  | nil => simp [endsInside]
  | cons c cs ih =>
    by_cases hc : c = '"'
    · have hcons : endsInside inside (c :: cs) = endsInside (!inside) cs := by simp [endsInside, hc]
      rw [hcons, hc, List.count_cons_self, Nat.even_add_one, ih (!inside)]
      cases inside <;> simp
    · have hcons : endsInside inside (c :: cs) = endsInside inside cs := by simp [endsInside, hc]
      rw [hcons, List.count_cons_of_ne hc, ih inside]

/-- Line by line, a text is scanned as it is at once, if no line leaves a string open. -/
theorem flatMap_ofSource_lines (h : ∀ line ∈ Text.lines (unifyBreaks cs), endsInside false line = false) :
    (Text.lines (unifyBreaks cs)).flatMap ofSource = ofSource cs := by
  induction hlines : Text.lines (unifyBreaks cs) generalizing cs with
  | nil =>
    rw [lines_unifyBreaks_eq_nil.mp hlines, ofSource_of_blank rfl]
    rfl
  | cons line others ih =>
    rw [hlines] at h
    rcases lines_unifyBreaks_eq_cons hlines with ⟨rfl, rfl⟩ | ⟨ending, hending, rest, rfl, rfl⟩
    · simp
    · obtain ⟨hne, hblank⟩ := isBlank_of_mem_breaks hending
      rw [List.flatMap_cons, ih (fun line hline => h line (List.mem_cons_of_mem _ hline)) rfl,
        ofSource_append_of_closed (h line List.mem_cons_self) hne hblank]

theorem ofSource_gathered (h : ∀ line ∈ group, endsInside false line = false) :
    ofSource (gathered group) = group.flatMap ofSource := by
  have hnil : ofSource [] = [] := ofSource_of_blank rfl
  induction group with
  | nil => rw [gathered_nil, hnil, List.flatMap_nil]
  | cons line group ih =>
    have hgroup := ih fun line hline => h line (List.mem_cons_of_mem _ hline)
    have hline : ofSource (gathered [line]) = ofSource line := by
      rw [gathered_singleton, ofSource, trim_trim, ofSource]
    rw [List.flatMap_cons, ← hgroup, ← hline, ← List.singleton_append]
    by_cases hblank : gathered [line] = []
    · rw [gathered_blank_append hblank, hblank, hnil, List.nil_append]
    by_cases hrest : gathered group = []
    · rw [gathered_append_of_blank hrest, hrest, hnil, List.append_nil]
    · have hclosed : endsInside false (gathered [line]) = false := by
        rw [gathered_singleton, endsInside_trim]
        exact h line List.mem_cons_self
      rw [gathered_append hblank hrest]
      exact ofSource_append_of_closed hclosed (List.cons_ne_nil ' ' []) (List.all_eq_true.mp rfl) (gathered group)

theorem Cut.flatMap_ofSource {number : Nat} {units : List (Nat × List Char)} (hcut : Cut number lines units)
    (h : ∀ line ∈ lines, endsInside false line = false) :
    (units.flatMap fun u => ofSource u.2) = lines.flatMap ofSource := by
  induction hcut with
  | nil => rfl
  | blank hline _ ih =>
    rw [ih fun line hmem => h line (List.mem_cons_of_mem _ hmem), List.flatMap_cons, ofSource_of_blank hline,
      List.nil_append]
  | closed _ _ _ ih =>
    rw [List.flatMap_cons, List.flatMap_append, ih fun line hmem => h line (List.mem_append_right _ hmem),
      ofSource_gathered fun line hmem => h line (List.mem_append_left _ hmem)]
  | tail _ _ => simp [ofSource_gathered h]

end SourceUnit

namespace Session
open SourceUnit

variable {path mode content : String} {m : Mode}

/-- The units that a session queues have the tokens of the file, in order, if each line has an even number of quotes.
The file may end its lines in any way. -/
theorem start_keeps_tokens (read : String → Option String) (handler : Handler) (typed : Bool) (settings : Settings)
    (hmode : Mode.ofName? mode = some m) (hpath : path ≠ typedPath) (hread : read path = some content)
    (heven : ∀ line ∈ Text.lines (Text.unifyBreaks content.toList), Even (line.count '"')) :
    ∃ s, (start read handler path mode typed settings).result = .ok s ∧
      (s.queue.flatMap fun u => Token.ofSource u.2.toList) = Token.ofSource content.toList ∧
      Token.ofSource (Text.unifyBreaks content.toList) = Token.ofSource content.toList := by
  have hclosed : ∀ line ∈ Text.lines (Text.unifyBreaks content.toList), endsInside false line = false :=
    fun line hline => (even_count_quote_iff false line).mp (heven line hline)
  have hcut : Cut 0 (Text.lines (Text.unifyBreaks content.toList)) (unitsOf content) :=
    cut_ofLines [] _ (.inl rfl) 0
  refine ⟨_, start_of_file read handler typed settings hmode hpath hread, ?_, ?_⟩
  · calc ((unitsOf content).map entry).flatMap (fun u => Token.ofSource u.2.toList)
        = (unitsOf content).flatMap (fun u => Token.ofSource u.2) := by simp [List.flatMap_map, entry]
      _ = Token.ofSource content.toList := by rw [hcut.flatMap_ofSource hclosed, flatMap_ofSource_lines hclosed]
  · rw [← flatMap_ofSource_lines hclosed, ← flatMap_ofSource_lines (by rwa [Text.unifyBreaks_unifyBreaks]),
      Text.unifyBreaks_unifyBreaks]

/-- Brackets in a string, a character that starts no token, and a bracket that nothing closes. -/
def unevenlyOpen : String := "let s = \"(\"\r\nf(@,\r 1)\n[x"

theorem start_keeps_tokens_unevenlyOpen : Mode.ofName? "evaluator" = some .evaluator ∧ "a.txt" ≠ typedPath ∧
    (∀ line ∈ Text.lines (Text.unifyBreaks unevenlyOpen.toList), Even (line.count '"')) ∧
    ∃ s, (start (fun _ => some unevenlyOpen) (.new true .plain) "a.txt" "evaluator" false
        ⟨.null, .flat, 5, 5⟩).result = .ok s ∧
      s.queue = [(1, "let s = \"(\""), (3, "f(@, 1)"), (4, "[x")] ∧
      (s.queue.flatMap fun u => Token.ofSource u.2.toList) = Token.ofSource unevenlyOpen.toList := by
  have hmode : Mode.ofName? "evaluator" = some .evaluator := rfl
  have hpath : "a.txt" ≠ typedPath := by decide
  have heven : ∀ line ∈ Text.lines (Text.unifyBreaks unevenlyOpen.toList), Even (line.count '"') := by
    have hlines : Text.lines (Text.unifyBreaks unevenlyOpen.toList) =
        ["let s = \"(\"".toList, "f(@,".toList, " 1)".toList, "[x".toList] := rfl
    rw [hlines]
    decide
  obtain ⟨s, hstart, htokens, -⟩ :=
    start_keeps_tokens (fun _ => some unevenlyOpen) (.new true .plain) false ⟨.null, .flat, 5, 5⟩ hmode hpath rfl heven
  have hqueue : s.queue = (unitsOf unevenlyOpen).map entry := by
    rw [start_of_file (fun _ => some unevenlyOpen) _ _ _ hmode hpath rfl] at hstart
    rw [← Except.ok.inj hstart]
  exact ⟨hmode, hpath, heven, s, hstart, by rw [hqueue]; rfl, htokens⟩

end Session
end Scriptlet
