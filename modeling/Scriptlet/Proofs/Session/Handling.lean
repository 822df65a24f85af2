import Mathlib
import Scriptlet.Proofs.Session.Reports

/-! What a handler makes of all that it is asked.  Files and lines are registered and taken out again, failures are
reported, and blocks that the handler guards are left.  Which files it knows and which lines it shows depends on the whole
history of these requests; what goes on from one of them depends on the interruption and on whether the handler is fatal. -/
namespace Scriptlet
namespace Handler

inductive Request
  | registerFile (path : String)
  | registerLine (path : String) (line : Line)
  | removeLine (path : String)
  | throw (f : Failure)
  /-- A block that the handler guards is left, early if something interrupts it. -/
  | leave (interruption : Option Interruption)
deriving DecidableEq, Repr

def perform (h : Handler) : Request → Handled
  | .registerFile path => ⟨"", h.registerFile path, none⟩
  | .registerLine path line => ⟨"", h.registerLine path line, none⟩
  | .removeLine path => ⟨"", h.removeLine path, none⟩
  | .throw f => h.throw f
  | .leave none => ⟨"", h, none⟩
  | .leave (some e) => h.handle e

/-- The handler after these requests.  What goes on from one of them does not keep the next from being made. -/
def ofRequests (fatal : Bool) (style : Text.Style) (requests : List Request) : Handler :=
  requests.foldl (fun h request => (h.perform request).handler) (new fatal style)

namespace Request

def sets? : Request → Option (String × Option Line)
  | registerFile path | removeLine path => some (path, none)
  | registerLine path line => some (path, some line)
  | throw _ | leave _ => none

def path? (request : Request) : Option String := request.sets?.map (·.1)

def registered? : Request → Option String
  | registerFile path | registerLine path _ => some path
  | removeLine _ | throw _ | leave _ => none

inductive Reports : Request → Failure → Option Interruption → Prop
  | throw f : Reports (.throw f) f none
  | failure f : Reports (.leave (some (.failure f))) f none
  | nesting : Reports (.leave (some .nesting)) (.plain "maximum recursion depth exceeded") none
  | keyboard : Reports (.leave (some .keyboard)) (.plain "keyboard interrupt") none
  | internal e : Reports (.leave (some (.internal e)))
      ⟨"unknown error: '" ++ e.kind ++ ": " ++ e.text ++ "'", [], true⟩ (some (.internal e))

/-- After a request of this kind the line that is being run of a file is still being run: the request does not name the file,
and has no report that would clear the lines. -/
def Spares (fatal : Bool) (path : String) (request : Request) : Prop :=
  request.path? ≠ some path ∧ (fatal = false → ∀ f goesOn, ¬ request.Reports f goesOn)

end Request

/-- This line was registered for the file, and every request since then has spared it. -/
def Current (fatal : Bool) (path : String) (line : Line) (requests : List Request) : Prop :=
  ∃ before later, requests = before ++ .registerLine path line :: later ∧ ∀ request ∈ later, request.Spares fatal path

def RemovesRegistered (requests : List Request) : Prop :=
  ∀ before path later, requests = before ++ .removeLine path :: later → path ∈ before.filterMap Request.registered?

def fileEntry (path : String) (line : Line) : String :=
  "  File '" ++ path ++ "', line " ++ toString line.number ++ ":\n    " ++ line.text ++ "\n"

def shownLine? : String × Option Line → Option (String × Line)
  | (path, current) => (current.filter (·.text ≠ "")).map (path, ·)

def shownLines (traceback : Table String (Option Line)) : Table String Line := traceback.filterMap shownLine?

section
variable {h : Handler} {request : Request} {path : String} {line : Line} {f : Failure} {goesOn : Option Interruption}
  {fatal : Bool} {style : Text.Style} {requests : List Request}

theorem Request.sets?_eq_some_some : request.sets? = some (path, some line) ↔ request = .registerLine path line := by
  cases request <;> simp [sets?]

theorem Request.Reports.sets?_eq_none (hreports : request.Reports f goesOn) : request.sets? = none := by
  cases hreports <;> rfl

theorem perform_of_sets {current : Option Line} (hsets : request.sets? = some (path, current)) :
    h.perform request = ⟨"", { h with traceback := h.traceback.put path current }, none⟩ := by
  cases request with
  | throw f => cases hsets
  | leave interruption => cases hsets
  | registerFile _ | registerLine _ _ | removeLine _ =>
    cases hsets
    rfl

theorem perform_of_reports (hreports : request.Reports f goesOn) : h.perform request =
    if h.fatal then ⟨h.report f, h, some (.exit "1")⟩ else ⟨h.report f, h.clear, goesOn⟩ := by
  cases hreports with
  | internal e => cases hfatal : h.fatal <;> simp [perform, handle, Handler.throw, hfatal]
  | _ => rfl

/-- All that a request can do: it sets one entry, has a failure reported, or leaves the handler alone. -/
theorem Request.trichotomy (request : Request) :
    (∃ path current, request.sets? = some (path, current)) ∨
    request.sets? = none ∧ ((∃ f goesOn, request.Reports f goesOn) ∨
      (∀ f goesOn, ¬ request.Reports f goesOn) ∧ ∀ h : Handler, (h.perform request).handler = h) := by
  cases request with
  | registerFile path | registerLine path line | removeLine path => exact .inl ⟨_, _, rfl⟩
  | throw f => exact .inr ⟨rfl, .inl ⟨f, none, .throw f⟩⟩
  | leave interruption =>
    refine .inr ⟨rfl, ?_⟩
    cases interruption with
    | none => exact .inr ⟨nofun, fun _ => rfl⟩
    | some e =>
      cases e with
      | failure f => exact .inl ⟨f, none, .failure f⟩
      | exit code => exact .inr ⟨nofun, fun _ => rfl⟩
      | nesting => exact .inl ⟨_, none, .nesting⟩
      | keyboard => exact .inl ⟨_, none, .keyboard⟩
      | internal e => exact .inl ⟨_, _, .internal e⟩

theorem keys_clear (h : Handler) : h.clear.traceback.keys = h.traceback.keys := by simp [clear, Table.keys]

theorem handler_of_reports (hreports : request.Reports f goesOn) :
    (h.perform request).handler = if h.fatal then h else h.clear := by
  rw [perform_of_reports hreports]
  split <;> rfl

theorem perform_keeps (h : Handler) (request : Request) :
    (h.perform request).handler.fatal = h.fatal ∧ (h.perform request).handler.style = h.style := by
  rcases request.trichotomy with ⟨path, current, hsets⟩ | ⟨-, ⟨f, goesOn, hreports⟩ | ⟨-, hsame⟩⟩
  · rw [perform_of_sets hsets]
    exact ⟨rfl, rfl⟩
  · rw [handler_of_reports hreports]
    split <;> exact ⟨rfl, rfl⟩
  · rw [hsame]
    exact ⟨rfl, rfl⟩

/-- The entry that a request sets is put; otherwise no file becomes known and none is forgotten. -/
theorem keys_perform (h : Handler) (request : Request) : (h.perform request).handler.traceback.keys =
    match request.path? with
    | some path => if path ∈ h.traceback.keys then h.traceback.keys else h.traceback.keys ++ [path]
    | none => h.traceback.keys := by
  rcases request.trichotomy with ⟨path, current, hsets⟩ | ⟨hsets, ⟨f, goesOn, hreports⟩ | ⟨-, hsame⟩⟩
  · simp only [perform_of_sets hsets, Request.path?, hsets, Option.map_some, Table.keys_put]
  · simp only [handler_of_reports hreports, Request.path?, hsets, Option.map_none]
    split
    · rfl
    · exact keys_clear h
  · simp only [hsame, Request.path?, hsets, Option.map_none]

theorem get?_of_reports (hreports : request.Reports f goesOn) :
    (h.perform request).handler.traceback.get? path = some (some line) ↔
      h.traceback.get? path = some (some line) ∧ h.fatal = true := by
  rw [handler_of_reports hreports]
  cases hfatal : h.fatal with
  | true => simp
  | false =>
    rw [if_neg (by decide), get?_clear]
    cases h.traceback.get? path <;> simp

/-- The line that is being run of a file is the one just registered, or the one from before if the request spares it. -/
theorem get?_perform (h : Handler) (request : Request) (path : String) (line : Line) :
    (h.perform request).handler.traceback.get? path = some (some line) ↔
      request = .registerLine path line ∨
        h.traceback.get? path = some (some line) ∧ request.Spares h.fatal path := by
  rw [← Request.sets?_eq_some_some]
  rcases request.trichotomy with ⟨named, current, hsets⟩ | ⟨hsets, ⟨f, goesOn, hreports⟩ | ⟨hquiet, hsame⟩⟩
  · have hpath : request.path? = some named := by rw [Request.path?, hsets, Option.map_some]
    have hquiet (f : Failure) (goesOn : Option Interruption) : ¬ request.Reports f goesOn := fun hreports => by
      rw [hreports.sets?_eq_none] at hsets
      cases hsets
    rw [perform_of_sets hsets, Table.get?_put, hsets, Request.Spares, hpath]
    by_cases hsame : named = path <;> simp [hsame, hquiet]
  · have hspares : request.Spares h.fatal path ↔ h.fatal = true := by
      simp only [Request.Spares, Request.path?, hsets, Option.map_none]
      refine ⟨fun hspares => ?_, fun hfatal => ⟨(Option.some_ne_none path).symm, by simp [hfatal]⟩⟩
      by_contra hfatal
      exact hspares.2 (by simpa using hfatal) f goesOn hreports
    rw [get?_of_reports hreports, hspares, hsets]
    simp
  · have hspares : request.Spares h.fatal path := by
      simp only [Request.Spares, Request.path?, hsets, Option.map_none]
      exact ⟨(Option.some_ne_none path).symm, fun _ => hquiet⟩
    simp [hsame, hspares, hsets]

theorem ofRequests_concat (fatal : Bool) (style : Text.Style) (requests : List Request) (request : Request) :
    ofRequests fatal style (requests ++ [request]) = ((ofRequests fatal style requests).perform request).handler :=
  List.foldl_append

theorem ofRequests_keeps (fatal : Bool) (style : Text.Style) (requests : List Request) :
    (ofRequests fatal style requests).fatal = fatal ∧ (ofRequests fatal style requests).style = style := by
  induction requests using List.reverseRecOn with
  | nil => exact ⟨rfl, rfl⟩
  | append_singleton requests request ih =>
    obtain ⟨hfatal, hstyle⟩ := perform_keeps (ofRequests fatal style requests) request
    rw [ofRequests_concat]
    exact ⟨hfatal.trans ih.1, hstyle.trans ih.2⟩

theorem eraseDups_concat (paths : List String) (path : String) : (paths ++ [path]).eraseDups =
    if path ∈ paths then paths.eraseDups else paths.eraseDups ++ [path] := by
  rw [List.eraseDups_append]
  by_cases h : path ∈ paths
  · simp [List.removeAll, h]
  · simp [List.removeAll, h, List.eraseDups_cons]

theorem keys_ofRequests (fatal : Bool) (style : Text.Style) (requests : List Request) :
    (ofRequests fatal style requests).traceback.keys = (requests.filterMap Request.path?).eraseDups := by
  induction requests using List.reverseRecOn with
  | nil => rfl
  | append_singleton requests request ih =>
    rw [ofRequests_concat, keys_perform, ih, List.filterMap_append]
    cases hpath : request.path? with
    | none => simp [hpath]
    | some path =>
      rw [List.filterMap_cons_some hpath, List.filterMap_nil, eraseDups_concat]
      simp only [List.mem_eraseDups]

theorem nodup_keys_ofRequests (fatal : Bool) (style : Text.Style) (requests : List Request) :
    (ofRequests fatal style requests).traceback.keys.Nodup := by
  induction requests using List.reverseRecOn with
  | nil => exact List.nodup_nil
  | append_singleton requests request ih =>
    rw [ofRequests_concat]
    rcases request.trichotomy with ⟨path, current, hsets⟩ | ⟨-, ⟨f, goesOn, hreports⟩ | ⟨-, hsame⟩⟩
    · rw [perform_of_sets hsets]
      exact Table.nodup_keys_put ih path current
    · rw [handler_of_reports hreports]
      split
      · exact ih
      · rwa [keys_clear]
    · rwa [hsame]

theorem current_concat : Current fatal path line (requests ++ [request]) ↔
    request = .registerLine path line ∨ Current fatal path line requests ∧ request.Spares fatal path := by
  constructor
  · rintro ⟨before, later, heq, hlater⟩
    rcases List.eq_nil_or_concat later with rfl | ⟨later, last, rfl⟩
    · exact .inl (List.append_singleton_inj.mp heq).2
    · rw [List.concat_eq_append, ← List.cons_append, ← List.append_assoc] at heq
      obtain ⟨rfl, rfl⟩ := List.append_singleton_inj.mp heq
      refine .inr ⟨⟨before, later, rfl, fun request hmem => hlater request ?_⟩, hlater request ?_⟩
      · simp [hmem]
      · simp
  · rintro (rfl | ⟨⟨before, later, rfl, hlater⟩, hspares⟩)
    · exact ⟨requests, [], rfl, nofun⟩
    · refine ⟨before, later ++ [request], by simp, fun other hmem => ?_⟩
      rcases List.mem_append.mp hmem with hmem | hmem
      · exact hlater other hmem
      · rwa [List.mem_singleton.mp hmem]

theorem get?_ofRequests : (ofRequests fatal style requests).traceback.get? path = some (some line) ↔
    Current fatal path line requests := by
  induction requests using List.reverseRecOn with
  | nil => simp [ofRequests, new, Table.get?, Current]
  | append_singleton requests request ih =>
    rw [ofRequests_concat, get?_perform, current_concat, ih, (ofRequests_keeps fatal style requests).1]

theorem filterMap_path?_eraseDups (hremoves : RemovesRegistered requests) :
    (requests.filterMap Request.path?).eraseDups = (requests.filterMap Request.registered?).eraseDups := by
  induction requests using List.reverseRecOn with
  | nil => rfl
  | append_singleton requests request ih =>
    have hdups := ih fun before path later heq => hremoves before path (later ++ [request]) (by simp [heq])
    have hmem (path : String) :
        path ∈ requests.filterMap Request.path? ↔ path ∈ requests.filterMap Request.registered? := by
      rw [← List.mem_eraseDups, hdups, List.mem_eraseDups]
    rw [List.filterMap_append, List.filterMap_append]
    cases request with
    | registerFile path | registerLine path line =>
      simp only [List.filterMap_cons, List.filterMap_nil, Request.path?, Request.sets?, Request.registered?,
        Option.map_some, eraseDups_concat, hmem, hdups]
    | removeLine path =>
      have hknown := (hmem path).mpr (hremoves requests path [] rfl)
      simp only [List.filterMap_cons, List.filterMap_nil, Request.path?, Request.sets?, Request.registered?,
        Option.map_some, eraseDups_concat, if_pos hknown, List.append_nil, hdups]
    | throw f | leave interruption =>
      simp only [List.filterMap_cons, List.filterMap_nil, Request.path?, Request.sets?, Request.registered?,
        Option.map_none, List.append_nil, hdups]

theorem shownLine?_eq_some {entry : String × Option Line} :
    shownLine? entry = some (path, line) ↔ entry = (path, some line) ∧ line.text ≠ "" := by
  obtain ⟨known, current⟩ := entry
  simp only [shownLine?, Option.map_eq_some_iff, Option.filter_eq_some_iff, Prod.mk.injEq, decide_eq_true_eq]
  constructor
  · rintro ⟨_, ⟨rfl, htext⟩, rfl, rfl⟩
    exact ⟨⟨rfl, rfl⟩, htext⟩
  · rintro ⟨⟨rfl, rfl⟩, htext⟩
    exact ⟨line, ⟨rfl, htext⟩, rfl, rfl⟩

theorem mem_shownLines {traceback : Table String (Option Line)} :
    (path, line) ∈ shownLines traceback ↔ (path, some line) ∈ traceback ∧ line.text ≠ "" := by
  simp only [shownLines, List.mem_filterMap, shownLine?_eq_some]
  constructor
  · rintro ⟨_, hmem, rfl, htext⟩
    exact ⟨hmem, htext⟩
  · rintro ⟨hmem, htext⟩
    exact ⟨_, hmem, rfl, htext⟩

theorem keys_shownLines (traceback : Table String (Option Line)) :
    (shownLines traceback).keys.Sublist traceback.keys := by
  induction traceback with
  | nil => exact .slnil
  | cons entry rest ih =>
    cases hshown : shownLine? entry with
    | none =>
      rw [shownLines, List.filterMap_cons_none hshown]
      exact ih.cons entry.1
    | some shown =>
      obtain ⟨rfl, -⟩ := shownLine?_eq_some.mp hshown
      rw [shownLines, List.filterMap_cons_some hshown]
      exact ih.cons_cons shown.1

theorem join_entryText (traceback : Table String (Option Line)) : String.join (traceback.map entryText) =
    String.join ((shownLines traceback).map fun (path, line) => fileEntry path line) := by
  induction traceback with
  | nil => rfl
  | cons entry rest ih =>
    obtain ⟨path, current⟩ := entry
    rw [List.map_cons, String.join_cons, ih]
    cases current with
    | none => simp [entryText, shownLines, shownLine?]
    | some line => by_cases htext : line.text = "" <;> simp [entryText, shownLines, shownLine?, htext, fileEntry]

/-- A history of requests tells of a handler which files it knows and how it reports a failure. -/
structure Reflects (h : Handler) (requests : List Request) : Prop where
  /-- Every file that has been named, in the order in which they were first named. -/
  files : h.traceback.keys = (requests.filterMap Request.path?).eraseDups
  once : h.traceback.keys.Nodup
  registered : RemovesRegistered requests →
    h.traceback.keys = (requests.filterMap Request.registered?).eraseDups
  lines : ∀ path line, h.traceback.get? path = some (some line) ↔ Current h.fatal path line requests
  report : ∃ shown : Table String Line, shown.keys.Sublist h.traceback.keys ∧
    (∀ path line, (path, line) ∈ shown ↔ Current h.fatal path line requests ∧ line.text ≠ "") ∧
    ∀ f, h.report f = String.join (shown.map fun (path, line) => fileEntry path line) ++
      (if f.internal then h.style.alarming "[internal] " else "") ++ h.style.alarming "error: " ++ f.message ++
      String.join (f.details.map ("\n\t" ++ ·)) ++ "\n"

/-- A handler has reported a failure.  A fatal one stays as it is and ends the program; any other one forgets the lines of
all files, and only what is left of the interruption goes on. -/
structure Reported (h : Handler) (f : Failure) (goesOn : Option Interruption) (handled : Handled) : Prop where
  printed : handled.printed = h.report f
  fatal : h.fatal = true → handled.handler = h ∧ handled.escaped = some (.exit "1")
  afresh : h.fatal = false → handled.handler = { h with traceback := handled.handler.traceback } ∧
    handled.handler.traceback.keys = h.traceback.keys ∧ (∀ entry ∈ handled.handler.traceback, entry.2 = none) ∧
    handled.escaped = goesOn

theorem reflects_ofRequests (fatal : Bool) (style : Text.Style) (requests : List Request) :
    (ofRequests fatal style requests).Reflects requests := by
  have hkeys := keys_ofRequests fatal style requests
  have hnodup := nodup_keys_ofRequests fatal style requests
  have hlines (path : String) (line : Line) :
      (ofRequests fatal style requests).traceback.get? path = some (some line) ↔
        Current (ofRequests fatal style requests).fatal path line requests := by
    rw [get?_ofRequests, (ofRequests_keeps fatal style requests).1]
  refine ⟨hkeys, hnodup, fun hremoves => hkeys.trans (filterMap_path?_eraseDups hremoves), hlines,
    shownLines _, keys_shownLines _, fun path line => ?_, fun f => ?_⟩
  · rw [mem_shownLines, ← Table.get?_eq_some_iff hnodup, hlines]
  · rw [report, places, join_entryText]

theorem reported_of_reports (hreports : request.Reports f goesOn) : h.Reported f goesOn (h.perform request) := by
  rw [perform_of_reports hreports]
  cases hfatal : h.fatal with
  | true => exact ⟨rfl, fun _ => ⟨rfl, rfl⟩, by simp [hfatal]⟩
  | false =>
    refine ⟨rfl, by simp [hfatal], fun _ => ⟨rfl, keys_clear h, fun entry hsets => ?_, rfl⟩⟩
    obtain ⟨known, -, rfl⟩ := List.mem_map.mp hsets
    rfl

end

/-- Take a handler after any requests.  It knows each file that they name once, in the order in which they first named them;
that is the order of the registrations if lines are taken out of registered files only.  A report shows, in this order, the
current line of each file that has one with a text, and then the failure.  Failures, too deep nesting, interrupts from the
keyboard and errors that no one expected are reported.  Then a fatal handler ends the program and is left as it is; any other
one forgets all lines, and only the errors that no one expected go on.  Exits go on without a report. -/
theorem reports_follow_requests (fatal : Bool) (style : Text.Style) (requests : List Request) :
    (ofRequests fatal style requests).fatal = fatal ∧ (ofRequests fatal style requests).style = style ∧
    (ofRequests fatal style requests).Reflects requests ∧
    (∀ request f goesOn, request.Reports f goesOn →
      (ofRequests fatal style requests).Reported f goesOn ((ofRequests fatal style requests).perform request)) ∧
    (∀ code, (ofRequests fatal style requests).perform (.leave (some (.exit code))) =
      ⟨"", ofRequests fatal style requests, some (.exit code)⟩) ∧
    (ofRequests fatal style requests).perform (.leave none) = ⟨"", ofRequests fatal style requests, none⟩ := by
  obtain ⟨hfatal, hstyle⟩ := ofRequests_keeps fatal style requests
  exact ⟨hfatal, hstyle, reflects_ofRequests fatal style requests, fun _ _ _ => reported_of_reports, fun _ => rfl, rfl⟩

/-- Taking a line out of a file that has not been registered makes the file known, so files do not always stand in the order
of their registrations. -/
theorem order_not_of_registrations :
    ¬ ∀ (fatal : Bool) (style : Text.Style) (requests : List Request),
      (requests.filterMap Request.registered?).eraseDups.Sublist (ofRequests fatal style requests).traceback.keys := by
  intro hall
  have horder := hall false .plain [.removeLine "a", .registerFile "b", .registerFile "a"]
  revert horder
  decide

end Handler
end Scriptlet
