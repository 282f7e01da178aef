import Puya.Arc4.Signature

/-! # The language server's diagnostics

    A model of `puyapy/lsp.py`. On every open, change and save of a document
    the server compiles the workspace and rebuilds its table of diagnostics
    (`parse_all`): the new table starts from every document the old one
    held, each with an empty list, and each log that names a file adds one
    diagnostic to that file's entry. `_refresh_diagnostics` then publishes
    every entry, so a document whose errors are fixed receives an empty
    list. A code action offers to wrap a rejected Python literal in
    `UInt64(...)`.

    The compiler stages, the editor's documents (`get_text_document`) and
    `Path.as_uri` are outside the modelled sources and enter as parameters.
    Each function has one spec lemma that later proofs cite:
    `parseAll_eq_ok` says that `parse_all` succeeds exactly when every log
    with a file gets a range and a source text, and that the table then
    holds, for each document, the diagnostics of the logs in it in log
    order, and nothing else.
-/

namespace Puya.Lsp

open Puya.Arc4 (pySlice)
open Puya.Wtypes (bind_eq_ok)

/-! ## Section 1: Python dictionaries -/

/-- A Python `dict`: its items in insertion order, each key once. -/
structure PyDict (κ ν : Type) where
  items : List (κ × ν)
  nodup : (items.map Prod.fst).Nodup

namespace PyDict

variable {κ ν μ : Type}

/-- The keys in insertion order: what iterating over a `dict` yields. -/
def keys (d : PyDict κ ν) : List κ := d.items.map Prod.fst

/-- `dict()`. -/
def empty : PyDict κ ν := ⟨[], List.nodup_nil⟩

/-- `{k: f(k) for k in d}`. -/
def ofKeys (d : PyDict κ ν) (f : κ → μ) : PyDict κ μ :=
  ⟨d.items.map fun e => (e.1, f e.1), by simpa [Function.comp_def] using d.nodup⟩

@[simp] theorem keys_empty : (empty : PyDict κ ν).keys = [] := rfl

@[simp] theorem keys_ofKeys (d : PyDict κ ν) (f : κ → μ) : (d.ofKeys f).keys = d.keys := by
  simp [ofKeys, keys, Function.comp_def]

theorem mem_items_ofKeys {d : PyDict κ ν} {f : κ → μ} {k : κ} {w : μ} :
    (k, w) ∈ (d.ofKeys f).items ↔ k ∈ d.keys ∧ w = f k := by
  simp only [ofKeys, keys, List.mem_map, Prod.mk.injEq, Prod.exists]
  constructor
  · rintro ⟨k', v, hm, rfl, rfl⟩; exact ⟨⟨k', v, hm, rfl⟩, rfl⟩
  · rintro ⟨⟨k', v, hm, rfl⟩, rfl⟩; exact ⟨k', v, hm, rfl, rfl⟩

variable [DecidableEq κ]

/-- `d.get(k)`. -/
def get? (d : PyDict κ ν) (k : κ) : Option ν := d.items.lookup k

/-- The dictionary after `d.setdefault(k, v)`. -/
def setdefault (d : PyDict κ ν) (k : κ) (v : ν) : PyDict κ ν :=
  if h : k ∈ d.keys then d
  else ⟨d.items ++ [(k, v)], by
    simpa only [List.map_append, List.map_cons, List.map_nil] using
      d.nodup.append (List.nodup_singleton k) (List.disjoint_singleton.2 h)⟩

theorem map_fst_modify (items : List (κ × ν)) (k : κ) (f : ν → ν) :
    (items.map fun e => if e.1 = k then (e.1, f e.2) else e).map Prod.fst =
      items.map Prod.fst := by
  induction items with
  | nil => rfl
  | cons e items ih => simp only [List.map_cons, ih]; split <;> rfl

/-- `d[k]` changed in place by `f`, as through the reference that
    `setdefault` returns. -/
def modify (d : PyDict κ ν) (k : κ) (f : ν → ν) : PyDict κ ν :=
  ⟨d.items.map fun e => if e.1 = k then (e.1, f e.2) else e,
    by rw [map_fst_modify]; exact d.nodup⟩

@[simp] theorem keys_modify (d : PyDict κ ν) (k : κ) (f : ν → ν) :
    (d.modify k f).keys = d.keys :=
  map_fst_modify d.items k f

/-- With each key once, `get?` finds exactly the items. -/
theorem get?_eq_some {d : PyDict κ ν} {k : κ} {v : ν} :
    d.get? k = some v ↔ (k, v) ∈ d.items := by
  obtain ⟨items, nodup⟩ := d
  simp only [get?]
  induction items with
  | nil => simp
  | cons e items ih =>
    obtain ⟨k', v'⟩ := e
    simp only [List.map_cons, List.nodup_cons, List.mem_map] at nodup
    simp only [List.lookup, List.mem_cons, Prod.mk.injEq]
    by_cases hk : k = k'
    · subst hk
      simp only [beq_self_eq_true, Option.some.injEq, true_and]
      exact ⟨fun h => .inl h.symm, fun h => h.elim Eq.symm
        fun hm => absurd ⟨(k, v), hm, rfl⟩ nodup.1⟩
    · simp [beq_false_of_ne hk, hk, ih nodup.2]

theorem get?_eq_none {d : PyDict κ ν} {k : κ} : d.get? k = none ↔ k ∉ d.keys := by
  rw [← not_iff_not, ← ne_eq, Option.ne_none_iff_exists', not_not]
  simp only [get?_eq_some, keys, List.mem_map, Prod.exists, exists_and_right, exists_eq_right]

theorem get?_ofKeys (d : PyDict κ ν) (f : κ → μ) (k : κ) :
    (d.ofKeys f).get? k = if k ∈ d.keys then some (f k) else none := by
  split
  · next h => exact get?_eq_some.2 (mem_items_ofKeys.2 ⟨h, rfl⟩)
  · next h => exact get?_eq_none.2 (by simpa using h)

theorem mem_items_setdefault {d : PyDict κ ν} {k k' : κ} {v w : ν} :
    (k', w) ∈ (d.setdefault k v).items ↔
      (k', w) ∈ d.items ∨ k' = k ∧ k ∉ d.keys ∧ w = v := by
  unfold setdefault
  split
  · rename_i h
    simp only [h, not_true_eq_false, false_and, and_false, or_false]
  · simp_all [and_comm]

theorem mem_items_modify {d : PyDict κ ν} {k k' : κ} {f : ν → ν} {w : ν} :
    (k', w) ∈ (d.modify k f).items ↔
      ∃ v, (k', v) ∈ d.items ∧ w = if k' = k then f v else v := by
  simp only [modify, List.mem_map, Prod.exists]
  constructor
  · rintro ⟨k'', v, hm, he⟩
    split at he <;> simp only [Prod.mk.injEq] at he <;> obtain ⟨rfl, rfl⟩ := he <;>
      exact ⟨v, hm, by simp [*]⟩
  · rintro ⟨v, hm, rfl⟩
    exact ⟨k', v, hm, by split <;> simp [*]⟩

end PyDict

/-! ## Section 2: Model -/

/-- `puya.log.LogLevel`. The server compares levels with `error` and with
    `warning` only; `other` is each of the rest. -/
inductive LogLevel
  | error
  | warning
  | other (name : String)
  deriving DecidableEq, Repr

/-- `puya.parse.SourceLocation`, with the fields the server reads; `φ` is
    the type of file paths. -/
structure SourceLocation (φ : Type) where
  file : Option φ
  line : Int
  endLine : Int
  column : Option Int
  endColumn : Option Int

/-- `puya.log.Log`. -/
structure Log (φ : Type) where
  message : String
  level : LogLevel
  location : Option (SourceLocation φ)

/-- `lsprotocol.types.Position`. -/
structure Position where
  line : Int
  character : Int
  deriving DecidableEq, Repr

/-- `lsprotocol.types.Range`, whose field `end` is `end_` here. -/
structure Range where
  start : Position
  end_ : Position
  deriving DecidableEq, Repr

/-- `lsprotocol.types.DiagnosticSeverity`. -/
inductive DiagnosticSeverity
  | error
  | warning
  | information
  | hint
  deriving DecidableEq, Repr

/-- `lsprotocol.types.Diagnostic`, with the fields `_diag` sets; `data` is
    the dictionary `{"source_code": ...}` by its one value, or `None`. -/
structure Diagnostic where
  message : String
  severity : DiagnosticSeverity
  range : Range
  source : String
  data : Option (List Char)
  deriving DecidableEq, Repr

/-- A `pygls` text document: its version and its lines. -/
structure TextDocument where
  version : Option Int
  lines : List (List Char)

/-- What the server reads from its environment while it handles one
    request: the editor's documents by URI, and the logs that
    `_parse_and_log` returns for the workspace's sources under a given
    analysis prefix. -/
structure Workspace (φ : Type) where
  getTextDocument : String → TextDocument
  parseAndLog : Option String → List (Log φ)

/-- The Python exception the server's own code can raise. -/
inductive PyExc
  /-- `IndexError`, from indexing a list outside its range. -/
  | indexError (msg : String)
  /-- `TypeError`, from `Path()` of a value that is not a string. -/
  | typeError (msg : String)
  deriving DecidableEq, Repr

/-- `xs[i]` for a list, a negative index counting from the end. -/
def pyIndex {α : Type} (xs : List α) (i : Int) : Except PyExc α :=
  let j := if i < 0 then i + xs.length else i
  if h : 0 ≤ j ∧ j < xs.length then .ok (xs.get ⟨j.toNat, by omega⟩)
  else .error (.indexError "list index out of range")

/-- The table of `PuyaPyLanguageServer.diagnostics`: per document URI, the
    document's version and its diagnostics. -/
abbrev Table := PyDict String (Option Int × List Diagnostic)

/-- The state of `PuyaPyLanguageServer`. -/
structure Server where
  diagnostics : Table
  analysisPrefix : Option String

/-- `PuyaPyLanguageServer.__init__`. -/
def Server.init : Server := ⟨PyDict.empty, none⟩

/-- `_NAME`. -/
def name : String := "puyapy-lsp"

/-- `_map_severity`. -/
def mapSeverity (logLevel : LogLevel) : DiagnosticSeverity :=
  if logLevel = .error then .error
  else if logLevel = .warning then .warning
  else .information

/-- `_diag`. -/
def diag (message : String) (level : LogLevel) (range_ : Range) (data : Option (List Char)) :
    Diagnostic :=
  { message, severity := mapSeverity level, range := range_, source := name, data }

section Server

variable {φ : Type} (ws : Workspace φ) (asUri : φ → String)

/-- `PuyaPyLanguageServer._resolve_location`, with `Path.as_uri` as
    `asUri`. -/
def resolveLocation (loc : SourceLocation φ) : Except PyExc Range :=
  match loc.file with
  | some file =>
    let line := loc.line - 1
    let column := loc.column.getD 0
    let endLine := loc.endLine - 1
    match loc.endColumn with
    | some endColumn => pure ⟨⟨line, column⟩, ⟨endLine, endColumn⟩⟩
    | none => do
      let document := ws.getTextDocument (asUri file)
      let endLineText ← pyIndex document.lines endLine
      pure ⟨⟨line, column⟩, ⟨endLine, endLineText.length⟩⟩
  | none => pure ⟨⟨0, 0⟩, ⟨0, 0⟩⟩

/-- `PuyaPyLanguageServer._get_source_code_data`, by the value of its
    dictionary's one key `source_code`. The end of the last line is cut
    before the start of the first, which matters when they are one line. -/
def getSourceCodeData (uri : String) (range_ : Range) : Except PyExc (List Char) := do
  let document := ws.getTextDocument uri
  let lines := pySlice document.lines range_.start.line (range_.end_.line + 1)
  let last ← pyIndex lines (-1)
  let lines := lines.set (lines.length - 1) (pySlice last 0 range_.end_.character)
  let first ← pyIndex lines 0
  let lines := lines.set 0 (pySlice first range_.start.character first.length)
  pure (['\n'].intercalate lines)

/-- The body of the loop over the logs in `parse_all`. -/
def addLog (diagnostics : Table) (log : Log φ) : Except PyExc Table :=
  match log.location with
  | some loc =>
    match loc.file with
    | some file => do
      let uri := asUri file
      let doc := ws.getTextDocument uri
      let diagnostics := diagnostics.setdefault uri (doc.version, [])
      let range_ ← resolveLocation ws asUri loc
      let data ← getSourceCodeData ws uri range_
      pure (diagnostics.modify uri fun (version, diags) =>
        (version, diags ++ [diag log.message log.level range_ (some data)]))
    | none => pure diagnostics
  | none => pure diagnostics

/-- `PuyaPyLanguageServer.parse_all`. The table is assigned only at the
    end, so an exception leaves the server as it was. -/
def parseAll (self : Server) : Except PyExc Server := do
  let logs := ws.parseAndLog self.analysisPrefix
  let diagnostics := self.diagnostics.ofKeys fun uri => ((ws.getTextDocument uri).version, [])
  let diagnostics ← logs.foldlM (addLog ws asUri) diagnostics
  pure { self with diagnostics }

end Server

/-! ## Section 3: What `parse_all` computes -/

section Spec

variable {φ : Type} (ws : Workspace φ) (asUri : φ → String)

/-- What one log adds to the table: the URI of its file and its
    diagnostic, nothing for a log without a file, or the exception that
    building the diagnostic raises. -/
def logDiagnostic (log : Log φ) : Except PyExc (Option (String × Diagnostic)) :=
  match log.location with
  | some loc =>
    match loc.file with
    | some file => do
      let range_ ← resolveLocation ws asUri loc
      let data ← getSourceCodeData ws (asUri file) range_
      pure (some (asUri file, diag log.message log.level range_ (some data)))
    | none => pure none
  | none => pure none

/-- Adding a diagnostic to the table: `setdefault`, then append. -/
def insertDiag (diagnostics : Table) : Option (String × Diagnostic) → Table
  | some (uri, d) =>
    (diagnostics.setdefault uri ((ws.getTextDocument uri).version, [])).modify uri
      fun (version, diags) => (version, diags ++ [d])
  | none => diagnostics

/-- `addLog` is `logDiagnostic` followed by `insertDiag`: the table is
    changed only once the diagnostic is built. -/
theorem addLog_eq (diagnostics : Table) (log : Log φ) :
    addLog ws asUri diagnostics log =
      (insertDiag ws diagnostics ·) <$> logDiagnostic ws asUri log := by
  unfold addLog logDiagnostic
  rcases log with ⟨message, level, _ | ⟨_ | file, line, endLine, column, endColumn⟩⟩ <;>
    try rfl
  simp only
  cases resolveLocation ws asUri _ <;> try rfl
  simp only [bind, Except.bind]
  cases getSourceCodeData ws (asUri file) _ <;> rfl

/-- The diagnostics a list of built entries gives the document `uri`. -/
def diagsFor (uri : String) (ds : List (Option (String × Diagnostic))) : List Diagnostic :=
  ds.filterMap fun r => r.bind fun (u, d) => if u = uri then some d else none

@[simp] theorem diagsFor_nil (uri : String) : diagsFor uri [] = [] := rfl

@[simp] theorem diagsFor_cons (uri : String) (r : Option (String × Diagnostic))
    (ds : List (Option (String × Diagnostic))) :
    diagsFor uri (r :: ds) = diagsFor uri [r] ++ diagsFor uri ds :=
  List.filterMap_append [r] ds _

/-- One insertion: the entry of `uri` gains the diagnostic if it is for
    `uri`, and is created with the document's version if it was missing. -/
theorem mem_insertDiag {t : Table} {r : Option (String × Diagnostic)} {uri : String}
    {e : Option Int × List Diagnostic} :
    (uri, e) ∈ (insertDiag ws t r).items ↔
      (∃ ds, (uri, (e.1, ds)) ∈ t.items ∧ e.2 = ds ++ diagsFor uri [r]) ∨
        (uri ∉ t.keys ∧ diagsFor uri [r] ≠ [] ∧
          e = ((ws.getTextDocument uri).version, diagsFor uri [r])) := by
  rcases r with _ | ⟨u, d⟩
  · simp only [insertDiag, diagsFor, List.filterMap_cons, Option.none_bind,
      List.filterMap_nil, List.append_nil, ne_eq, not_true_eq_false, false_and, and_false,
      or_false]
    exact ⟨fun h => ⟨e.2, h, rfl⟩, fun ⟨ds, h, he⟩ => by rwa [← he] at h⟩
  · simp only [insertDiag, PyDict.mem_items_modify, PyDict.mem_items_setdefault]
    by_cases hu : uri = u
    · subst hu
      simp only [diagsFor, List.filterMap_cons, Option.some_bind, if_true, List.filterMap_nil]
      constructor
      · rintro ⟨v, h | ⟨-, hk, rfl⟩, rfl⟩
        · exact .inl ⟨v.2, h, rfl⟩
        · exact .inr ⟨hk, List.cons_ne_nil _ _, rfl⟩
      · rintro (⟨ds, h, he⟩ | ⟨hk, -, rfl⟩)
        · exact ⟨(e.1, ds), .inl h, Prod.ext rfl he⟩
        · exact ⟨_, .inr ⟨trivial, hk, rfl⟩, rfl⟩
    · simp only [diagsFor, List.filterMap_cons, Option.some_bind, if_neg (Ne.symm hu),
        List.filterMap_nil, hu, false_and, or_false, List.append_nil, ne_eq, not_true_eq_false,
        and_false]
      constructor
      · rintro ⟨v, h, rfl⟩; exact ⟨_, h, rfl⟩
      · rintro ⟨ds, h, he⟩; exact ⟨e, by rwa [← he] at h, rfl⟩

/-- How the entry of one document changes when diagnostics `ds` are added
    for it: they are appended to its entry, or, if it has none, make a new
    entry with the document's version. -/
def extendEntry (version : Option Int) (ds : List Diagnostic) :
    Option (Option Int × List Diagnostic) → Option (Option Int × List Diagnostic)
  | some (v, old) => some (v, old ++ ds)
  | none => if ds = [] then none else some (version, ds)

theorem extendEntry_extendEntry (version : Option Int) (ds₁ ds₂ : List Diagnostic)
    (o : Option (Option Int × List Diagnostic)) :
    extendEntry version ds₂ (extendEntry version ds₁ o) =
      extendEntry version (ds₁ ++ ds₂) o := by
  rcases o with _ | ⟨v, old⟩
  · by_cases h₁ : ds₁ = [] <;> simp [extendEntry, h₁]
  · simp [extendEntry]

theorem get?_insertDiag (t : Table) (r : Option (String × Diagnostic)) (uri : String) :
    (insertDiag ws t r).get? uri =
      extendEntry (ws.getTextDocument uri).version (diagsFor uri [r]) (t.get? uri) := by
  refine Option.ext fun e => ?_
  change _ = some e ↔ _ = some e
  rw [PyDict.get?_eq_some, mem_insertDiag]
  cases ht : t.get? uri with
  | none =>
    have hk := PyDict.get?_eq_none.1 ht
    show _ ↔ (if _ = [] then none else some _) = some e
    constructor
    · rintro (⟨ds, h, -⟩ | ⟨-, hd, rfl⟩)
      · exact absurd (PyDict.get?_eq_some.2 h) (by simp [ht])
      · rw [if_neg hd]
    · split
      · nofun
      · next hd => rintro ⟨⟩; exact .inr ⟨hk, hd, rfl⟩
  | some entry =>
    obtain ⟨v, old⟩ := entry
    have hm := PyDict.get?_eq_some.1 ht
    have hk : uri ∈ t.keys := List.mem_map.2 ⟨_, hm, rfl⟩
    show _ ∨ _ ↔ some (v, old ++ _) = some e
    simp only [hk, not_true_eq_false, false_and, or_false, Option.some.injEq]
    constructor
    · rintro ⟨ds, h, he⟩
      obtain ⟨h₁, h₂⟩ :=
        Prod.ext_iff.1 (Option.some.inj ((PyDict.get?_eq_some.2 h).symm.trans ht))
      exact Prod.ext h₁.symm (by rw [he]; exact congrArg (· ++ _) h₂.symm)
    · rintro rfl; exact ⟨old, hm, rfl⟩

theorem get?_foldl_insertDiag (rs : List (Option (String × Diagnostic))) (t : Table)
    (uri : String) :
    (rs.foldl (insertDiag ws) t).get? uri =
      extendEntry (ws.getTextDocument uri).version (diagsFor uri rs) (t.get? uri) := by
  induction rs generalizing t with
  | nil => rw [List.foldl_nil]; cases t.get? uri <;> simp [extendEntry]
  | cons r rs ih =>
    rw [List.foldl_cons, ih, get?_insertDiag, extendEntry_extendEntry, ← diagsFor_cons]

/-- The loop of `parse_all` builds every log's diagnostic, stopping at the
    first exception, and inserts them in log order. -/
theorem foldlM_addLog (logs : List (Log φ)) (t : Table) :
    logs.foldlM (addLog ws asUri) t =
      (fun rs => rs.foldl (insertDiag ws) t) <$> logs.mapM (logDiagnostic ws asUri) := by
  induction logs generalizing t with
  | nil => rfl
  | cons log logs ih =>
    rw [List.foldlM_cons, List.mapM_cons, addLog_eq]
    cases logDiagnostic ws asUri log with
    | error e => rfl
    | ok r =>
      simp only [Functor.map, Except.map, bind, Except.bind, ih]
      cases List.mapM (logDiagnostic ws asUri) logs <;> rfl

/-- `parse_all` fails exactly when building some log's diagnostic fails,
    with that exception. -/
theorem parseAll_eq_error (self : Server) (e : PyExc) :
    parseAll ws asUri self = .error e ↔
      (ws.parseAndLog self.analysisPrefix).mapM (logDiagnostic ws asUri) = .error e := by
  unfold parseAll
  simp only [foldlM_addLog]
  cases List.mapM (logDiagnostic ws asUri) _ <;>
    simp [Functor.map, Except.map, bind, Except.bind, pure, Except.pure]

/-- What `parse_all` computes. After it, each document's entry is the
    document's current version with the diagnostics of the logs located in
    it, in log order; a document has an entry exactly when it had one
    before or some log is located in it. -/
theorem parseAll_eq_ok {self self' : Server} (h : parseAll ws asUri self = .ok self') :
    ∃ rs, (ws.parseAndLog self.analysisPrefix).mapM (logDiagnostic ws asUri) = .ok rs ∧
      self'.analysisPrefix = self.analysisPrefix ∧
      ∀ uri, self'.diagnostics.get? uri =
        if uri ∈ self.diagnostics.keys ∨ diagsFor uri rs ≠ [] then
          some ((ws.getTextDocument uri).version, diagsFor uri rs)
        else none := by
  unfold parseAll at h
  simp only [foldlM_addLog] at h
  cases hrs : List.mapM (logDiagnostic ws asUri) (ws.parseAndLog self.analysisPrefix) with
  | error e => rw [hrs] at h; cases h
  | ok rs =>
    rw [hrs] at h
    cases h
    refine ⟨rs, rfl, rfl, fun uri => ?_⟩
    rw [get?_foldl_insertDiag, PyDict.get?_ofKeys]
    by_cases hk : uri ∈ self.diagnostics.keys
    · simp [extendEntry, hk]
    · by_cases hd : diagsFor uri rs = [] <;> simp [extendEntry, hk, hd]

end Spec

end Puya.Lsp
