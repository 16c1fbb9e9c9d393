/-
Structured log lines (`LogEvent`).

The escaper writes quotes, backslashes and newlines as escapes of two characters
and everything else as it is, the other control characters included, which JSON
does not allow inside a string.

* `stringBody_jsonEscape` — how an escaped string is read back;
* `parse_logLine` — what a JSON parser makes of a line;
* `logEvent_lossless_iff` — when a line is valid and gives the strings back.
-/
import HpcTelemetry.JsonText
import HpcTelemetry.StreamExtraction

namespace Agent

open JsonText StreamExtraction

inductive LogLevel where
  | kDebug
  | kInfo
  | kWarn
  | kError
  deriving DecidableEq

def levelName : LogLevel → List Char
  | .kDebug => "DEBUG".toList
  | .kInfo => "INFO".toList
  | .kWarn => "WARN".toList
  | .kError => "ERROR".toList

/-- `JsonEscape`. -/
def jsonEscape (raw : List Char) : List Char :=
  raw.flatMap fun c =>
    if c = '"' then ['\\', '"']
    else if c = '\\' then ['\\', '\\']
    else if c = '\n' then ['\\', 'n']
    else [c]

/-- The line that `LogEvent` builds; `epochSeconds` is the time as it is
printed. -/
def logLine (epochSeconds : List Char) (level : LogLevel) (event nodeId detail : List Char) :
    List Char :=
  ["\x7b\"ts\":".toList, epochSeconds, ",\"level\":\"".toList, levelName level,
    "\",\"logger\":\"hpctel.agent\",\"message\":\"".toList, jsonEscape event,
    "\",\"node_id\":\"".toList, jsonEscape nodeId, "\"".toList,
    if detail = [] then [] else [",\"detail\":\"".toList, jsonEscape detail, "\"".toList].flatten,
    "\x7d".toList].flatten

/-- What `LogEvent` writes. -/
def logEvent (epochSeconds : List Char) (level : LogLevel) (event nodeId detail : List Char) :
    List Char :=
  logLine epochSeconds level event nodeId detail ++ ['\n']

/-! ### Escaped strings -/

/-- No control character but the newline. -/
def Printable (s : List Char) : Prop := ∀ c ∈ s, c = '\n' ∨ 0x20 ≤ c.toNat

instance (s : List Char) : Decidable (Printable s) := List.decidableBAll _ s

theorem printable_cons {c : Char} {s : List Char} :
    Printable (c :: s) ↔ (c = '\n' ∨ 0x20 ≤ c.toNat) ∧ Printable s :=
  List.forall_mem_cons

theorem jsonEscape_cons (c : Char) (s : List Char) :
    jsonEscape (c :: s) = (if c = '"' then ['\\', '"'] else if c = '\\' then ['\\', '\\']
      else if c = '\n' then ['\\', 'n'] else [c]) ++ jsonEscape s := rfl

/-- An escaped string is read back if it is printable, and refused if not. -/
theorem stringBody_jsonEscape (s rest : List Char) :
    stringBody (jsonEscape s ++ '"' :: rest) = if Printable s then some (s, rest) else none := by
  induction s with
  | nil => exact stringBody_quote rest
  | cons c s ih =>
    -- a character that comes back passes the verdict on to the rest
    have hpass : (c = '\n' ∨ 0x20 ≤ c.toNat) → (stringBody (jsonEscape s ++ '"' :: rest)).map
        (fun r => (c :: r.1, r.2)) = if Printable (c :: s) then some (c :: s, rest) else none := by
      intro hc
      rw [ih]
      by_cases hs : Printable s
      · rw [if_pos hs, if_pos (printable_cons.mpr ⟨hc, hs⟩)]
        rfl
      · rw [if_neg hs, if_neg fun h => hs (printable_cons.mp h).2]
        rfl
    rw [jsonEscape_cons, List.append_assoc]
    by_cases hquote : c = '"'
    · subst hquote
      rw [if_pos rfl]
      exact (stringBody_escape (by decide) _).trans (hpass (by decide))
    by_cases hbackslash : c = '\\'
    · subst hbackslash
      rw [if_neg hquote, if_pos rfl]
      exact (stringBody_escape (by decide) _).trans (hpass (by decide))
    rw [if_neg hquote, if_neg hbackslash]
    by_cases hnewline : c = '\n'
    · subst hnewline
      rw [if_pos rfl]
      exact (stringBody_escape (by decide) _).trans (hpass (Or.inl rfl))
    · rw [if_neg hnewline, List.singleton_append, stringBody_cons hquote hbackslash]
      by_cases hcontrol : c.toNat < 0x20
      · rw [if_pos hcontrol, if_neg]
        intro h
        rcases (printable_cons.mp h).1 with heq | hle
        · exact hnewline heq
        · omega
      · rw [if_neg hcontrol, hpass (Or.inr (not_lt.mp hcontrol))]

theorem readsAs_jsonEscape {s : List Char} (h : Printable s) : ReadsAs (jsonEscape s) s := by
  intro rest
  rw [stringBody_jsonEscape, if_pos h]

theorem refused_jsonEscape {s : List Char} (h : ¬ Printable s) : Refused (jsonEscape s) := by
  intro rest
  rw [stringBody_jsonEscape, if_neg h]

/-- A string that needs no escapes. -/
theorem readsAs_self {s : List Char} (h : Printable s) (hplain : jsonEscape s = s) :
    ReadsAs s s := by
  have hreads := readsAs_jsonEscape h
  rwa [hplain] at hreads

theorem readsAs_levelName (level : LogLevel) : ReadsAs (levelName level) (levelName level) := by
  cases level with
  | kDebug => exact readsAs_self (by decide +kernel) (by decide +kernel)
  | kInfo => exact readsAs_self (by decide +kernel) (by decide +kernel)
  | kWarn => exact readsAs_self (by decide +kernel) (by decide +kernel)
  | kError => exact readsAs_self (by decide +kernel) (by decide +kernel)

/-! ### Members of the line -/

section Members

variable {fuel : ℕ} {key : List Char} (hkey : ReadsAs key key) (s rest : List Char)

include hkey

/-- A member with an escaped string, in front of another one. -/
theorem members_jsonEscape_comma :
    members (fuel + 2) ('"' :: (key ++ '"' :: ':' :: '"' :: (jsonEscape s ++ '"' :: ',' :: rest)))
      = if Printable s then (members (fuel + 1) rest).map fun r => ((key, .str s) :: r.1, r.2)
        else none := by
  by_cases hs : Printable s
  · rw [if_pos hs]
    exact members_comma hkey (value_of_readsAs (readsAs_jsonEscape hs) _)
  · rw [if_neg hs]
    exact members_none hkey (value_of_refused (refused_jsonEscape hs) _)

/-- A member with an escaped string, in front of the closing bracket. -/
theorem members_jsonEscape_close :
    members (fuel + 2) ('"' :: (key ++ '"' :: ':' :: '"' :: (jsonEscape s ++ '"' :: '}' :: rest)))
      = if Printable s then some ([(key, .str s)], rest) else none := by
  by_cases hs : Printable s
  · rw [if_pos hs]
    exact members_close hkey (value_of_readsAs (readsAs_jsonEscape hs) _)
  · rw [if_neg hs]
    exact members_none hkey (value_of_refused (refused_jsonEscape hs) _)

end Members

/-- The keys of a line need no escapes. -/
theorem readsAs_key : ∀ key ∈ ["ts".toList, "level".toList, "logger".toList, "message".toList,
    "node_id".toList, "detail".toList, "hpctel.agent".toList], ReadsAs key key := by
  have hplain : ∀ key ∈ ["ts".toList, "level".toList, "logger".toList, "message".toList,
      "node_id".toList, "detail".toList, "hpctel.agent".toList],
      Printable key ∧ jsonEscape key = key := by
    -- or the kernel would decode the literals
    repeat rw [String.toList_ofList]
    decide +kernel
  intro key hkey
  exact readsAs_self (hplain key hkey).1 (hplain key hkey).2

/-- The text behind the value of `node_id`. -/
def lineEnd (detail : List Char) : List Char :=
  if detail = [] then ['}']
  else ',' :: '"' :: ("detail".toList ++ '"' :: ':' :: '"' :: (jsonEscape detail ++ ['"', '}']))

theorem logLine_eq (epochSeconds : List Char) (level : LogLevel)
    (event nodeId detail : List Char) :
    logLine epochSeconds level event nodeId detail =
      '{' :: '"' :: ("ts".toList ++ '"' :: ':' :: (epochSeconds ++ ',' ::
      '"' :: ("level".toList ++ '"' :: ':' :: '"' :: (levelName level ++ '"' :: ',' ::
      '"' :: ("logger".toList ++ '"' :: ':' :: '"' :: ("hpctel.agent".toList ++ '"' :: ',' ::
      '"' :: ("message".toList ++ '"' :: ':' :: '"' :: (jsonEscape event ++ '"' :: ',' ::
      '"' :: ("node_id".toList ++ '"' :: ':' :: '"' :: (jsonEscape nodeId ++ '"' ::
      lineEnd detail)))))))))) := by
  have hts : "\x7b\"ts\":".toList = '{' :: '"' :: ("ts".toList ++ ['"', ':']) := by
    rw [String.toList_ofList, String.toList_ofList]
    rfl
  have hlevel : ",\"level\":\"".toList = ',' :: '"' :: ("level".toList ++ ['"', ':', '"']) := by
    rw [String.toList_ofList, String.toList_ofList]
    rfl
  have hmessage : "\",\"logger\":\"hpctel.agent\",\"message\":\"".toList
      = '"' :: ',' :: '"' :: ("logger".toList ++ '"' :: ':' :: '"' :: ("hpctel.agent".toList ++
        '"' :: ',' :: '"' :: ("message".toList ++ ['"', ':', '"']))) := by
    rw [String.toList_ofList, String.toList_ofList, String.toList_ofList, String.toList_ofList]
    rfl
  have hnode : "\",\"node_id\":\"".toList
      = '"' :: ',' :: '"' :: ("node_id".toList ++ ['"', ':', '"']) := by
    rw [String.toList_ofList, String.toList_ofList]
    rfl
  have hdetail : ",\"detail\":\"".toList = ',' :: '"' :: ("detail".toList ++ ['"', ':', '"']) := by
    rw [String.toList_ofList, String.toList_ofList]
    rfl
  have hquote : "\"".toList = ['"'] := String.toList_ofList
  have hclose : "\x7d".toList = ['}'] := String.toList_ofList
  -- an equation lemma of `logLine` would evaluate the texts
  delta logLine lineEnd
  simp only [hts, hlevel, hmessage, hnode, hdetail, hquote, hclose]
  split_ifs
  · simp only [List.flatten_cons, List.flatten_nil, List.cons_append, List.append_assoc,
      List.nil_append, List.append_nil]
  · simp only [List.flatten_cons, List.flatten_nil, List.cons_append, List.append_assoc,
      List.nil_append, List.append_nil]

/-- What the line says. -/
def logMembers (epochSeconds : List Char) (level : LogLevel) (event nodeId detail : List Char) :
    List (List Char × Json) :=
  [("ts".toList, .num epochSeconds), ("level".toList, .str (levelName level)),
    ("logger".toList, .str "hpctel.agent".toList), ("message".toList, .str event),
    ("node_id".toList, .str nodeId)] ++
    if detail = [] then [] else [("detail".toList, .str detail)]

/-- The members from `node_id` on. -/
theorem members_nodeId {fuel : ℕ} (nodeId detail : List Char) :
    members (fuel + 3) ('"' :: ("node_id".toList ++ '"' :: ':' :: '"' :: (jsonEscape nodeId ++
        '"' :: lineEnd detail)))
      = if Printable nodeId ∧ Printable detail then
          some (("node_id".toList, .str nodeId) ::
            if detail = [] then [] else [("detail".toList, .str detail)], [])
        else none := by
  rw [lineEnd]
  by_cases hdetail : detail = []
  · subst hdetail
    have hnil : Printable [] := List.forall_mem_nil _
    rw [if_pos rfl, if_pos rfl, members_jsonEscape_close (readsAs_key _ (by simp))]
    simp only [hnil, and_true]
  · rw [if_neg hdetail, if_neg hdetail, members_jsonEscape_comma (readsAs_key _ (by simp)),
      members_jsonEscape_close (readsAs_key _ (by simp))]
    by_cases hnode : Printable nodeId
    · by_cases hprint : Printable detail
      · rw [if_pos hnode, if_pos hprint, if_pos ⟨hnode, hprint⟩]
        rfl
      · rw [if_pos hnode, if_neg hprint, if_neg fun h => hprint h.2]
        rfl
    · rw [if_neg hnode, if_neg fun h => hnode h.1]

/-- A parser refuses the line if one of the strings has a control character in
it that is not escaped. -/
theorem parse_logLine {epochSeconds : List Char} (hts : IsNumber epochSeconds) (level : LogLevel)
    (event nodeId detail : List Char) :
    parse (logLine epochSeconds level event nodeId detail)
      = if Printable event ∧ Printable nodeId ∧ Printable detail then
          some (.obj (logMembers epochSeconds level event nodeId detail))
        else none := by
  obtain ⟨fuel, hfuel⟩ : ∃ fuel, (logLine epochSeconds level event nodeId detail).length + 1
      = fuel + 8 := by
    refine ⟨(logLine epochSeconds level event nodeId detail).length + 1 - 8, ?_⟩
    rw [logLine_eq]
    simp only [List.length_cons, List.length_append]
    omega
  have hlevel := @value_of_readsAs (fuel + 4) _ _ (readsAs_levelName level)
  have hlogger := @value_of_readsAs (fuel + 3) _ _ (readsAs_key "hpctel.agent".toList (by simp))
  rw [parse, hfuel, logLine_eq, value_object,
    members_comma (readsAs_key "ts".toList (by simp)) (value_number _ hts (by decide) _),
    members_comma (readsAs_key "level".toList (by simp)) (hlevel _),
    members_comma (readsAs_key "logger".toList (by simp)) (hlogger _),
    members_jsonEscape_comma (readsAs_key "message".toList (by simp)), members_nodeId]
  by_cases hevent : Printable event
  · by_cases hrest : Printable nodeId ∧ Printable detail
    · rw [if_pos hevent, if_pos hrest, if_pos (And.intro hevent hrest)]
      rfl
    · rw [if_pos hevent, if_neg hrest, if_neg fun h => hrest h.2]
      rfl
  · rw [if_neg hevent, if_neg fun h => hevent h.1]
    rfl

/-! ### One line -/

theorem newline_not_mem_jsonEscape (s : List Char) : '\n' ∉ jsonEscape s := by
  induction s with
  | nil => exact List.not_mem_nil
  | cons c s ih =>
    rw [jsonEscape_cons, List.mem_append, not_or]
    refine ⟨?_, ih⟩
    split_ifs with hquote hbackslash hnewline
    · decide
    · decide
    · decide
    · rw [List.mem_singleton]
      exact fun h => hnewline h.symm

theorem newline_not_mem_of_isNumber {n : List Char} (hn : IsNumber n) : '\n' ∉ n := by
  intro hmem
  exact absurd (numberChar_of_number hn _ hmem) (by decide)

theorem newline_not_mem_levelName (level : LogLevel) : '\n' ∉ levelName level := by
  cases level with
  | kDebug => decide +kernel
  | kInfo => decide +kernel
  | kWarn => decide +kernel
  | kError => decide +kernel

/-- Only the end of the line is a newline. -/
theorem newline_not_mem_logLine {epochSeconds : List Char} (hts : IsNumber epochSeconds)
    (level : LogLevel) (event nodeId detail : List Char) :
    '\n' ∉ logLine epochSeconds level event nodeId detail := by
  have hchunks : ∀ chunk ∈ ["\x7b\"ts\":".toList, ",\"level\":\"".toList,
      "\",\"logger\":\"hpctel.agent\",\"message\":\"".toList, "\",\"node_id\":\"".toList,
      "\"".toList, ",\"detail\":\"".toList, "\x7d".toList], '\n' ∉ chunk := by
    repeat rw [String.toList_ofList]
    decide +kernel
  simp only [List.forall_mem_cons] at hchunks
  obtain ⟨h1, h2, h3, h4, h5, h6, h7, _⟩ := hchunks
  delta logLine
  split_ifs
  · simp only [List.flatten_cons, List.flatten_nil, List.mem_append, List.not_mem_nil, h1, h2, h3,
      h4, h5, h7, newline_not_mem_jsonEscape, newline_not_mem_of_isNumber hts,
      newline_not_mem_levelName, or_self, not_false_eq_true]
  · simp only [List.flatten_cons, List.flatten_nil, List.mem_append, List.not_mem_nil, h1, h2, h3,
      h4, h5, h6, h7, newline_not_mem_jsonEscape, newline_not_mem_of_isNumber hts,
      newline_not_mem_levelName, or_self, not_false_eq_true]

/-! ### Valid and lossless lines -/

/-- The text is one line, a parser accepts it as an object, and the members of
the object are the strings.  An empty `detail` has no member. -/
def Lossless (text event nodeId detail : List Char) : Prop :=
  ∃ line members, lines text = [line] ∧ parse line = some (.obj members) ∧
    members.lookup "message".toList = some (.str event) ∧
    members.lookup "node_id".toList = some (.str nodeId) ∧
    (members.lookup "detail".toList).getD (.str []) = .str detail

theorem lookup_logMembers (epochSeconds : List Char) (level : LogLevel)
    (event nodeId detail : List Char) :
    (logMembers epochSeconds level event nodeId detail).lookup "message".toList
        = some (.str event) ∧
      (logMembers epochSeconds level event nodeId detail).lookup "node_id".toList
        = some (.str nodeId) ∧
      ((logMembers epochSeconds level event nodeId detail).lookup "detail".toList).getD (.str [])
        = .str detail := by
  rw [logMembers]
  split_ifs with hdetail
  · subst hdetail
    exact ⟨rfl, rfl, rfl⟩
  · exact ⟨rfl, rfl, rfl⟩

theorem lines_logEvent {epochSeconds : List Char} (hts : IsNumber epochSeconds)
    (level : LogLevel) (event nodeId detail : List Char) :
    lines (logEvent epochSeconds level event nodeId detail)
      = [logLine epochSeconds level event nodeId detail] := by
  rw [logEvent, lines_append (newline_not_mem_logLine hts level event nodeId detail)]
  rfl

/-- Strings that come back have no control character but the newline. -/
theorem printable_of_lossless {epochSeconds : List Char} (hts : IsNumber epochSeconds)
    {level : LogLevel} {event nodeId detail : List Char}
    (h : Lossless (logEvent epochSeconds level event nodeId detail) event nodeId detail) :
    Printable event ∧ Printable nodeId ∧ Printable detail := by
  obtain ⟨line, members, hlines, hparse, _⟩ := h
  by_contra hprint
  rw [lines_logEvent hts, List.singleton_inj] at hlines
  rw [← hlines, parse_logLine hts, if_neg hprint] at hparse
  exact Option.some_ne_none _ hparse.symm

/-- The strings come back exactly if they have no control character but the
newline. -/
theorem logEvent_lossless_iff {epochSeconds : List Char} (hts : IsNumber epochSeconds)
    (level : LogLevel) (event nodeId detail : List Char) :
    Lossless (logEvent epochSeconds level event nodeId detail) event nodeId detail ↔
      Printable event ∧ Printable nodeId ∧ Printable detail := by
  constructor
  · exact printable_of_lossless hts
  · intro hprint
    refine ⟨_, _, lines_logEvent hts level event nodeId detail, ?_,
      lookup_logMembers epochSeconds level event nodeId detail⟩
    rw [parse_logLine hts, if_pos hprint]

/-- Quotes, backslashes and newlines come back. -/
theorem logEvent_lossless_iff_example :
    Lossless (logEvent "1.75312e+09".toList .kWarn "queue_overflow".toList "a\\b".toList
        "the \"oldest\"\nrecord".toList)
      "queue_overflow".toList "a\\b".toList "the \"oldest\"\nrecord".toList := by
  repeat rw [String.toList_ofList]
  exact (logEvent_lossless_iff (by decide +kernel) .kWarn _ _ _).mpr (by decide +kernel)

/-- A tab in `NODE_ID` makes the line of the first event invalid. -/
theorem logEvent_lossless_counterexample :
    ¬ Lossless (logEvent "1.75312e+09".toList .kInfo "agent_starting".toList "node\t7".toList [])
      "agent_starting".toList "node\t7".toList [] := by
  repeat rw [String.toList_ofList]
  intro h
  have hprint := printable_of_lossless (by decide +kernel) h
  exact absurd hprint.2.1 (by decide +kernel)

end Agent
