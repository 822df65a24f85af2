import Scriptlet.Proofs.Data.Tables
import Scriptlet.Proofs.Tokens.Partition
import Scriptlet.Session.Basic

/-! How a file is divided into units.  A unit is gathered from a run of lines, from the first that is not blank to the
one at which its brackets are closed; only the last unit of a file may be left open.  So the units have every line that
is not blank, in order, and no two of them end at the same line. -/
namespace Scriptlet

namespace SourceUnit
open Text

def contents (lines : List (List Char)) : List (List Char) := (lines.map trim).filter (!·.isEmpty)

/-- What lines give as one text, with single spaces between those that are not blank. -/
def gathered (lines : List (List Char)) : List Char := [' '].intercalate (contents lines)

def joined (units : List (Nat × List Char)) : List Char := [' '].intercalate (units.map (·.2))

theorem intercalate_append {sep : List Char} {xs ys : List (List Char)} (hxs : xs ≠ []) (hys : ys ≠ []) :
    sep.intercalate (xs ++ ys) = sep.intercalate xs ++ sep ++ sep.intercalate ys := by
  induction xs with
  | nil => exact absurd rfl hxs
  | cons x xs ih =>
    cases xs with
    | nil => simpa using List.intercalate_cons_of_ne_nil hys
    | cons x' xs =>
      have hrest := ih (List.cons_ne_nil x' xs)
      simp only [List.cons_append, List.intercalate_cons_cons] at hrest ⊢
      simp [hrest]

section
variable {group rest : List (List Char)} {line : List Char}

theorem contents_append (group rest : List (List Char)) :
    contents (group ++ rest) = contents group ++ contents rest := by
  simp [contents]

theorem contents_singleton (line : List Char) : contents [line] = if trim line = [] then [] else [trim line] := by
  by_cases hline : trim line = [] <;> simp [contents, hline]

theorem gathered_nil : gathered [] = [] := rfl

theorem gathered_singleton (line : List Char) : gathered [line] = trim line := by
  rw [gathered, contents_singleton]
  by_cases hline : trim line = [] <;> simp [hline]

theorem gathered_eq_nil : gathered group = [] ↔ contents group = [] := by
  constructor
  · intro h
    cases hcontents : contents group with
    | nil => rfl
    | cons line others =>
      have hmem : line ∈ contents group := by simp [hcontents]
      have hline : line ≠ [] := by
        rintro rfl
        simp [contents] at hmem
      cases others <;> simp [gathered, hcontents, hline] at h
  · intro h
    rw [gathered, h, List.intercalate_nil]

theorem gathered_append_eq_nil : gathered (group ++ rest) = [] ↔ gathered group = [] ∧ gathered rest = [] := by
  simp only [gathered_eq_nil, contents_append, List.append_eq_nil_iff]

theorem gathered_append_of_blank (h : gathered rest = []) : gathered (group ++ rest) = gathered group := by
  rw [gathered, contents_append, gathered_eq_nil.mp h, List.append_nil, gathered]

theorem gathered_blank_append (h : gathered group = []) : gathered (group ++ rest) = gathered rest := by
  rw [gathered, contents_append, gathered_eq_nil.mp h, List.nil_append, gathered]

theorem gathered_append (hgroup : gathered group ≠ []) (hrest : gathered rest ≠ []) :
    gathered (group ++ rest) = gathered group ++ ' ' :: gathered rest := by
  rw [gathered, contents_append,
    intercalate_append (mt gathered_eq_nil.mpr hgroup) (mt gathered_eq_nil.mpr hrest)]
  simp [gathered]

/-- Gathered text starts and ends with no blank, so that trimming it, as is done with each further line, changes
nothing. -/
theorem isBlank_eq_false_of_gathered (group : List (List Char)) :
    (∀ c ∈ (gathered group).head?, isBlank c = false) ∧ ∀ c ∈ (gathered group).getLast?, isBlank c = false := by
  induction group with
  | nil => simp [gathered_nil]
  | cons line group ih =>
    have hline : (∀ c ∈ (gathered [line]).head?, isBlank c = false) ∧
        ∀ c ∈ (gathered [line]).getLast?, isBlank c = false := by
      rw [gathered_singleton]
      exact ⟨head?_trim line, getLast?_trimEnd _⟩
    rw [← List.singleton_append]
    by_cases hblank : gathered [line] = []
    · rwa [gathered_blank_append hblank]
    · by_cases hgroup : gathered group = []
      · rwa [gathered_append_of_blank hgroup]
      · rw [gathered_append hblank hgroup, List.head?_append, Option.or_of_isSome (List.isSome_head?.mpr hblank),
          List.getLast?_append, List.getLast?_cons_of_ne_nil hgroup,
          Option.or_of_isSome (List.getLast?_isSome.mpr hgroup)]
        exact ⟨hline.1, ih.2⟩

theorem join_gathered (group : List (List Char)) (line : List Char) :
    join (gathered group) line = gathered (group ++ [line]) := by
  have htrimmed := isBlank_eq_false_of_gathered (group ++ [line])
  by_cases hgroup : gathered group = []
  · simp [join, hgroup, gathered_blank_append hgroup, gathered_singleton]
  · have hjoin : join (gathered group) line = trim (gathered group ++ ' ' :: gathered [line]) := by
      simp [join, hgroup, gathered_singleton]
    rw [hjoin]
    by_cases hline : gathered [line] = []
    · rw [gathered_append_of_blank hline] at htrimmed
      have hspace : ∀ c ∈ [' '], isBlank c := List.all_eq_true.mp rfl
      have htrim : trim ([] ++ (gathered group ++ [' '])) = gathered group :=
        trim_append (by simp) hspace htrimmed.1 htrimmed.2
      rwa [gathered_append_of_blank hline, hline]
    · rw [← gathered_append hgroup hline]
      exact trim_eq_self htrimmed.1 htrimmed.2

end

/-- Lines from which one unit is gathered: the first is not blank, and up to each line before the last brackets are
open. -/
structure Gathers (group : List (List Char)) : Prop where
  first : ∃ line ∈ group.head?, trim line ≠ []
  opens : ∀ n, 0 < n → n < group.length → hasOpenBrackets (gathered (group.take n))

namespace Gathers
variable {group : List (List Char)} {line : List Char}

theorem gathered_ne_nil (h : Gathers group) : gathered group ≠ [] := by
  obtain ⟨line, hfirst, hline⟩ := h.first
  obtain ⟨others, rfl⟩ : ∃ others, group = line :: others := List.head?_eq_some_iff.mp hfirst
  rw [Ne, gathered_eq_nil, ← List.singleton_append, contents_append, contents_singleton, if_neg hline]
  simp

theorem length_pos (h : Gathers group) : 0 < group.length := by
  obtain ⟨line, hfirst, -⟩ := h.first
  exact List.length_pos_of_mem (List.mem_of_mem_head? hfirst)

theorem singleton (h : trim line ≠ []) : Gathers [line] where
  first := ⟨line, rfl, h⟩
  opens n hpos hn := absurd hn (by simp; omega)

theorem concat (h : Gathers group) (hopen : hasOpenBrackets (gathered group)) (line : List Char) :
    Gathers (group ++ [line]) where
  first := by
    obtain ⟨line', hfirst, hline⟩ := h.first
    exact ⟨line', by rw [List.head?_append, Option.mem_def.mp hfirst]; rfl, hline⟩
  opens n hpos hn := by
    have hle : n ≤ group.length := by simpa [Nat.lt_succ_iff] using hn
    rw [List.take_append_of_le_length hle]
    rcases Nat.lt_or_eq_of_le hle with hlt | rfl
    · exact h.opens n hpos hlt
    · rwa [List.take_length]

end Gathers

/-- Lines, of which the first has the number after `number`, are cut into units: blank lines are passed over, and each
unit is gathered from the lines up to the one at which nothing is open any more, or from all that are left. -/
inductive Cut : (number : Nat) → (lines : List (List Char)) → (units : List (Nat × List Char)) → Prop
  | nil {number} : Cut number [] []
  | blank {number line rest units} (hline : trim line = []) (hrest : Cut (number + 1) rest units) :
    Cut number (line :: rest) units
  | closed {number group rest units} (hgroup : Gathers group) (hclosed : hasOpenBrackets (gathered group) = false)
      (hrest : Cut (number + group.length) rest units) :
    Cut number (group ++ rest) ((number + group.length, gathered group) :: units)
  | tail {number group} (hgroup : Gathers group) (hopen : hasOpenBrackets (gathered group)) :
    Cut number group [(number + group.length, gathered group)]

/-- The loop over the lines, when some are gathered and left open, cuts them and the rest. -/
theorem cut_ofLines (group rest : List (List Char))
    (hgroup : group = [] ∨ Gathers group ∧ hasOpenBrackets (gathered group)) (number : Nat) :
    Cut number (group ++ rest) (ofLines (gathered group) (number + group.length) rest) := by
  -- Whenever the loop comes to a line, `group` has the lines of the unit that it is at, or none.
  induction rest generalizing group number with
  | nil =>
    rw [List.append_nil]
    rcases hgroup with rfl | ⟨hgathers, hopen⟩
    · exact .nil
    · simpa [ofLines, hgathers.gathered_ne_nil] using Cut.tail hgathers hopen
  | cons line rest ih =>
    rw [ofLines, join_gathered]
    by_cases hblank : gathered (group ++ [line]) = []
    · obtain ⟨hnil, hline⟩ := gathered_append_eq_nil.mp hblank
      obtain rfl := hgroup.resolve_right fun h => h.1.gathered_ne_nil hnil
      have hrest := ih [] (.inl rfl) (number + 1)
      rw [gathered_singleton] at hline
      simpa [gathered_nil, gathered_singleton, hline] using Cut.blank hline hrest
    · have hgathers : Gathers (group ++ [line]) := by
        rcases hgroup with rfl | ⟨hgathers, hopen⟩
        · rw [List.nil_append, gathered_singleton] at hblank
          exact .singleton hblank
        · exact hgathers.concat hopen line
      by_cases hopen : hasOpenBrackets (gathered (group ++ [line]))
      · simpa [hblank, hopen, Nat.add_assoc] using ih (group ++ [line]) (.inr ⟨hgathers, hopen⟩) number
      · have hrest := ih [] (.inl rfl) (number + (group ++ [line]).length)
        simpa [gathered_nil, hblank, hopen, Nat.add_assoc] using Cut.closed hgathers (by simpa using hopen) hrest

namespace Cut
variable {number : Nat} {lines : List (List Char)} {units : List (Nat × List Char)}

theorem eq_nil (h : Cut number lines units) (hblank : gathered lines = []) : units = [] := by
  induction h with
  | nil => rfl
  | blank hline _ ih =>
    rw [← List.singleton_append, gathered_append_eq_nil] at hblank
    exact ih hblank.2
  | closed hgroup _ _ _ => exact absurd (gathered_append_eq_nil.mp hblank).1 hgroup.gathered_ne_nil
  | tail hgroup _ => exact absurd hblank hgroup.gathered_ne_nil

theorem joined_eq (h : Cut number lines units) : joined units = gathered lines := by
  induction h with
  | nil => rfl
  | blank hline _ ih =>
    rw [← List.singleton_append, gathered_blank_append (by rwa [gathered_singleton]), ih]
  | @closed number group rest units hgroup _ hrest ih =>
    by_cases hblank : gathered rest = []
    · rw [hrest.eq_nil hblank, gathered_append_of_blank hblank]
      simp [joined]
    · have hunits : units.map (·.2) ≠ [] := by
        rintro hnil
        rw [← ih, joined, hnil] at hblank
        exact hblank rfl
      rw [gathered_append hgroup.gathered_ne_nil hblank, ← ih, joined, List.map_cons,
        List.intercalate_cons_of_ne_nil hunits, List.append_assoc]
      rfl
  | tail _ _ => simp [joined]

theorem number_lt (h : Cut number lines units) : ∀ u ∈ units, number < u.1 := by
  induction h with
  | nil => simp
  | blank _ _ ih =>
    intro u hu
    have hlt := ih u hu
    omega
  | closed hgroup _ _ ih =>
    have hpos := hgroup.length_pos
    intro u hu
    rcases List.mem_cons.mp hu with rfl | hu
    · exact Nat.lt_add_of_pos_right hpos
    · have hlt := ih u hu
      omega
  | tail hgroup _ => simpa using hgroup.length_pos

theorem increasing (h : Cut number lines units) : units.Pairwise (·.1 < ·.1) := by
  induction h with
  | nil => exact .nil
  | blank _ _ ih => exact ih
  | closed _ _ hrest ih => exact List.pairwise_cons.mpr ⟨hrest.number_lt, ih⟩
  | tail _ _ => exact List.pairwise_singleton _ _

/-- Each unit is gathered from lines that follow those of the units before it, and only the last may be open. -/
theorem placed (h : Cut number lines units) {earlier later : List (Nat × List Char)} {u : Nat × List Char}
    (hunits : units = earlier ++ u :: later) :
    ∃ before group after, lines = before ++ (group ++ after) ∧ Cut number before earlier ∧
      u = (number + before.length + group.length, gathered group) ∧ Gathers group ∧
      (hasOpenBrackets u.2 → later = [] ∧ after = []) := by
  induction h generalizing earlier with
  | nil => simp at hunits
  | @blank number line rest units hline hrest ih =>
    obtain ⟨before, group, after, rfl, hbefore, rfl, hgroup, hlast⟩ := ih hunits
    exact ⟨line :: before, group, after, rfl, .blank hline hbefore, by simp [Nat.add_assoc, Nat.add_comm 1], hgroup,
      hlast⟩
  | @closed number group rest units hgroup hclosed hrest ih =>
    cases earlier with
    | nil =>
      obtain ⟨rfl, rfl⟩ := List.cons.inj hunits
      exact ⟨[], group, rest, rfl, .nil, rfl, hgroup, fun hopen => by simp [hclosed] at hopen⟩
    | cons first earlier =>
      obtain ⟨rfl, hothers⟩ := List.cons.inj hunits
      obtain ⟨before, group', after, rfl, hbefore, rfl, hgroup', hlast⟩ := ih hothers
      exact ⟨group ++ before, group', after, by simp, .closed hgroup hclosed hbefore, by simp [Nat.add_assoc], hgroup',
        hlast⟩
  | @tail number group hgroup _ =>
    cases earlier with
    | nil =>
      obtain ⟨rfl, rfl⟩ := List.cons.inj hunits
      exact ⟨[], group, [], by simp, .nil, rfl, hgroup, fun _ => ⟨rfl, rfl⟩⟩
    | cons first earlier => simp at hunits

end Cut

/-- The units, of which each has the number of a line, stand for all of the lines. -/
structure Divides (lines : List (List Char)) (units : List (Nat × List Char)) : Prop where
  joined_eq : joined units = gathered lines
  increasing : units.Pairwise (·.1 < ·.1)
  /-- A unit is gathered from the lines that end at its number, and at no line before was it without open brackets.  The
  lines before are those of the units before, and a unit with open brackets is gathered up to the last line. -/
  placed : ∀ earlier u later, units = earlier ++ u :: later → ∃ before group after,
    lines = before ++ (group ++ after) ∧ joined earlier = gathered before ∧
      u = (before.length + group.length, gathered group) ∧ Gathers group ∧
      (hasOpenBrackets u.2 → later = [] ∧ after = [])

theorem divides_ofLines (lines : List (List Char)) : Divides lines (ofLines [] 0 lines) := by
  have hcut : Cut 0 lines (ofLines [] 0 lines) := cut_ofLines [] lines (.inl rfl) 0
  refine ⟨hcut.joined_eq, hcut.increasing, fun earlier u later hunits => ?_⟩
  obtain ⟨before, group, after, hlines, hbefore, hu, hgroup, hlast⟩ := hcut.placed hunits
  exact ⟨before, group, after, hlines, hbefore.joined_eq, by rwa [Nat.zero_add] at hu, hgroup, hlast⟩

end SourceUnit

namespace Session
open SourceUnit

def entry (u : Nat × List Char) : LineNumber × String := (u.1, String.ofList u.2)

/-- Units with new numbers that increase are queued in their order, and none replaces another. -/
theorem queue_addAll {s : Session} {units : List (Nat × List Char)} (hincreasing : units.Pairwise (·.1 < ·.1))
    (hnew : ∀ u ∈ units, (u.1 : LineNumber) ∉ s.queue.keys) : (s.addAll units).queue = s.queue ++ units.map entry := by
  induction units generalizing s with
  | nil => simp [addAll]
  | cons u units ih =>
    obtain ⟨hless, hincreasing⟩ := List.pairwise_cons.mp hincreasing
    have hqueue : (s.add (String.ofList u.2) u.1).queue = s.queue ++ [entry u] :=
      Table.put_of_not_mem (hnew u List.mem_cons_self) _
    have hnew' : ∀ v ∈ units, (v.1 : LineNumber) ∉ (s.add (String.ofList u.2) u.1).queue.keys := by
      intro v hv hmem
      rw [hqueue, Table.keys, List.map_append, List.mem_append] at hmem
      rcases hmem with hmem | hmem
      · exact hnew v (List.mem_cons_of_mem u hv) hmem
      · have hsame : v.1 = u.1 := Int.ofNat_inj.mp (List.mem_singleton.mp hmem)
        exact absurd hsame (hless v hv).ne'
    calc (s.addAll (u :: units)).queue
        = ((s.add (String.ofList u.2) u.1).addAll units).queue := rfl
      _ = s.queue ++ (u :: units).map entry := by
        rw [ih hincreasing hnew', hqueue, List.append_assoc, List.map_cons, List.singleton_append]

theorem addAll_eq (s : Session) (units : List (Nat × List Char)) :
    s.addAll units = { s with queue := (s.addAll units).queue } := by
  induction units generalizing s with
  | nil => rfl
  | cons u units ih => exact ih (s.add (String.ofList u.2) u.1)

variable {path mode content : String} {m : Mode}

theorem start_of_file (read : String → Option String) (handler : Handler) (typed : Bool) (settings : Settings)
    (hmode : Mode.ofName? mode = some m) (hpath : path ≠ typedPath) (hread : read path = some content) :
    (start read handler path mode typed settings).result =
      .ok ⟨{ handler.registerFile path with fatal := (handler.registerFile path).fatal && !typed }, path, m, settings,
        .initial, (unitsOf content).map entry⟩ := by
  have hdivides : Divides (Text.lines (Text.unifyBreaks content.toList)) (unitsOf content) := divides_ofLines _
  simp only [start, hmode, if_neg hpath, hread]
  rw [addAll_eq, queue_addAll hdivides.increasing (by simp [Table.keys]), List.nil_append]

/-- A session on a file has all of it in its queue, divided into units, each by the number of the line at which its
brackets were closed. -/
theorem start_divides_file (read : String → Option String) (handler : Handler) (typed : Bool) (settings : Settings)
    (hmode : Mode.ofName? mode = some m) (hpath : path ≠ typedPath) (hread : read path = some content) :
    ∃ s, (start read handler path mode typed settings).result = .ok s ∧
      s.queue = (unitsOf content).map entry ∧
      Divides (Text.lines (Text.unifyBreaks content.toList)) (unitsOf content) := by
  have hdivides : Divides (Text.lines (Text.unifyBreaks content.toList)) (unitsOf content) := divides_ofLines _
  have hstart : (start read handler path mode typed settings).result = .ok (addAll
      ⟨{ handler.registerFile path with fatal := (handler.registerFile path).fatal && !typed }, path, m, settings,
        .initial, []⟩ (unitsOf content)) := by
    simp only [start, hmode, if_neg hpath, hread]
  exact ⟨_, hstart, queue_addAll hdivides.increasing (by simp [Table.keys]), hdivides⟩

/-- Brackets in strings do not count, so the first unit goes on to the fourth line.  Nothing closes the last. -/
theorem start_divides_open_file : Mode.ofName? "evaluator" = some .evaluator ∧ "a.txt" ≠ typedPath ∧
    ∃ s, (start (fun _ => some "f(\n\n \")\"\n )\n  \n[1\n\n") (.new true .plain) "a.txt" "evaluator" false
        ⟨.null, .flat, 5, 5⟩).result = .ok s ∧
      s.queue = [(4, "f( \")\" )"), (7, "[1")] := by
  have hmode : Mode.ofName? "evaluator" = some .evaluator := rfl
  have hpath : "a.txt" ≠ typedPath := by decide
  obtain ⟨s, hstart, hqueue, -⟩ := start_divides_file (fun _ => some "f(\n\n \")\"\n )\n  \n[1\n\n") (.new true .plain)
    false ⟨.null, .flat, 5, 5⟩ hmode hpath rfl
  exact ⟨hmode, hpath, s, hstart, by rw [hqueue]; rfl⟩

end Session
end Scriptlet
