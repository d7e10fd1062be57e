import CanInsight.LogHeader
import CanInsight.Lib.Query
import CanInsight.Transfers

/-!
# What the requests say

`upload_file` asks for a file by what the header of the file says, and posts it under the unit
number that is configured now. Both requests are put together without escaping anything.

* `requests`: the requests of a run, and `requests_uploadFile`: those of an upload;
* `values_getQuery`, `values_postQuery`: what their queries say;
* `sameLog_iff`: they name the same log, with what is in its header, if and only if no text
  ends the query or adds to it, and the header has the unit number that is configured.
-/

namespace CanInsight

open CString Query

/-! ## Requests -/

/-- The request line that the HTTP client sends for a GET. -/
def getLine (uri : Bytes) : Bytes := "GET ".toList ++ uri ++ " HTTP/1.1".toList ++ crlf

/-- What is sent to the server about a file. -/
def Event.request : Event → Option Bytes
  | .getSent uri => some (getLine uri)
  | .postSent header => some header
  | _ => none

/-- The requests of a run, the latest first. -/
def requests (trace : List Event) : List Bytes := trace.filterMap Event.request

/-- The query names a log, with what is in its header. -/
def Identifies (q : Text) (name : Name) (m : LogFileMeta) : Prop :=
  values "log_name".toList q = [name] ∧ values "unit_number".toList q = [m.unitNumber] ∧
    values "log_time".toList q = [m.logStartTime]

/-- Between two states there were a GET and a POST, and both name the log. -/
def SameLog (d e : Device) (name : Name) (m : LogFileMeta) : Prop :=
  ∃ get post, requests e.trace = post :: get :: requests d.trace ∧
    Identifies (query get) name m ∧ Identifies (query post) name m

/-! ## Headers -/

/-- The text fits an array of so many characters. -/
def FitsField (size : ℕ) (s : Bytes) : Prop := s.length < size ∧ nul ∉ s

/-- A log begins with a JSON object that has its unit and its time. -/
structure HeaderOf (deserializeJson : Bytes → Option Json) (file : Bytes) (m : LogFileMeta) :
    Prop where
  members : ∃ root, deserializeJson (readFirstLine 1999 file) = some root ∧
    member "unit_number" (some root) = some (.string m.unitNumber) ∧
    member "unit_type" (some root) = some (.string m.unitType) ∧
    member "log_start_time" (some root) = some (.string m.logStartTime)
  unitNumber : FitsField 11 m.unitNumber
  unitType : FitsField 11 m.unitType
  logStartTime : FitsField 29 m.logStartTime

/-- The text neither ends the query nor adds a name or a time to it. -/
def KeepsApart (s : Bytes) : Prop :=
  Spaceless s ∧ s ≠ "&log_name=".toList ∧ s ≠ "&log_time=".toList

/-- The text is a value as it is. -/
def IsValue (s : Bytes) : Prop := Spaceless s ∧ '&' ∉ s

/-- Nothing that is sent ends a query or adds to it, and the log is of the unit that is
    configured. -/
structure Unmistakable (config : ConfigManager) (m : LogFileMeta) : Prop where
  unitType : KeepsApart m.unitType
  logStartTime : IsValue m.logStartTime
  configured : KeepsApart config.unitNumber
  sameUnit : first config.unitNumber = m.unitNumber

variable {config : ConfigManager} {m m' : LogFileMeta} {name : Name} {s file : Bytes} {n : ℕ}
  {deserializeJson : Bytes → Option Json}

theorem strlcpy_of_fitsField {size : ℕ} (h : FitsField size s) : strlcpy size s = s :=
  strlcpy_self h.2 (Nat.le_sub_one_of_lt h.1)

/-- What is in a header is read. -/
theorem HeaderOf.read (h : HeaderOf deserializeJson file m) :
    LogFileMeta.read deserializeJson file = some m := by
  obtain ⟨root, hroot, hnumber, htype, htime⟩ := h.members
  rw [LogFileMeta.read, hroot, Option.map_some, hnumber, htype, htime, orString, orString,
    orString, strlcpy_of_fitsField h.unitNumber, strlcpy_of_fitsField h.unitType,
    strlcpy_of_fitsField h.logStartTime]

/-- What `start_log` writes is such a header, if nothing has to be escaped in it. -/
theorem headerOf_headerLine {clock : Clock} (h : config.Configured) (hr : HeaderReadable config)
    (hclock : clock.rtc < 2 ^ 32) (hd : ReadsJson deserializeJson) (rest : Bytes) :
    HeaderOf deserializeJson (headerLine config clock ++ crlf ++ rest)
      ⟨config.unitNumber, config.unitType, setCurrentTimeInBuffer clock.rtc clock.millis⟩ := by
  have htime := length_setCurrentTimeInBuffer_le hclock clock.millis
  exact {
    members := ⟨_, deserialize_headerLine h hr hclock hd rest, member_unitNumber, member_unitType,
      member_logStartTime⟩
    unitNumber := ⟨Nat.lt_succ_of_le h.unitNumber, nul_not_mem_of_plain hr.unitNumber.1⟩
    unitType := ⟨Nat.lt_succ_of_le h.unitType, nul_not_mem_of_plain hr.unitType.1⟩
    logStartTime := ⟨Nat.lt_of_le_of_lt htime (by decide),
      nul_not_mem_of_plain (standsForItself_time _ _).1⟩ }

/-! ## The queries -/

/-- The fields of the GET. -/
def getFields (m : LogFileMeta) (name : Name) : List (Text × Text) :=
  [("unit_type".toList, m.unitType), ("unit_number".toList, m.unitNumber),
    ("log_time".toList, m.logStartTime), ("log_name".toList, name)]

/-- The fields of the POST. -/
def postFields (config : ConfigManager) (m : LogFileMeta) (name : Name) : List (Text × Text) :=
  [("log_name".toList, name), ("unit_number".toList, config.unitNumber),
    ("log_time".toList, m.logStartTime)]

theorem query_getLine (m : LogFileMeta) (name : Name) :
    ∃ rest, query (getLine (getUri m name)) =
      beforeSpace (print (getFields m name) ++ ' ' :: rest) := by
  refine ⟨"HTTP/1.1".toList ++ crlf, ?_⟩
  have hline : getLine (getUri m name) = "GET /data_file/".toList ++
      '?' :: (print (getFields m name) ++ ' ' :: ("HTTP/1.1".toList ++ crlf)) := by
    delta getLine getUri getFields
    simp -implicitDefEqProofs only [print, printField, String.reduceToList, List.append_assoc,
      List.cons_append, List.nil_append]
  rw [hline, query_append (by decide)]

theorem query_postHeader (config : ConfigManager) (m : LogFileMeta) (name : Name) (n : ℕ) :
    ∃ rest, query (postHeader config m name n) =
      beforeSpace (print (postFields config m name) ++ ' ' :: rest) := by
  refine ⟨"HTTP/1.1\nUser-Agent: Arduino/1.0\nContent-Type: text/plain\nContent-Length: ".toList ++
    decimal (i32 n) ++ "\n".toList ++ crlf, ?_⟩
  have hline : postHeader config m name n = "POST /data_file/".toList ++
      '?' :: (print (postFields config m name) ++ ' ' ::
        ("HTTP/1.1\nUser-Agent: Arduino/1.0\nContent-Type: text/plain\nContent-Length: ".toList ++
          decimal (i32 n) ++ "\n".toList ++ crlf)) := by
    delta postHeader postFields
    simp -implicitDefEqProofs only [print, printField, String.reduceToList, List.append_assoc,
      List.cons_append, List.nil_append]
  rw [hline, query_append (by decide)]

/-- The query of the GET, if nothing in it is a space. -/
theorem query_getLine_of_spaceless (hf : ∀ f ∈ getFields m name, Unbroken f) :
    query (getLine (getUri m name)) = print (getFields m name) := by
  obtain ⟨rest, h⟩ := query_getLine m name
  rw [h, beforeSpace_print hf (by decide)]

theorem query_postHeader_of_spaceless (hf : ∀ f ∈ postFields config m name, Unbroken f) (n : ℕ) :
    query (postHeader config m name n) = print (postFields config m name) := by
  obtain ⟨rest, h⟩ := query_postHeader config m name n
  rw [h, beforeSpace_print hf (by decide)]

/-- What the GET says, if no value but the first has an `&`. -/
theorem values_getQuery (ht : m.unitType.length ≤ 10) (hn : '&' ∉ m.unitNumber)
    (hl : '&' ∉ m.logStartTime) (hname : '&' ∉ name) :
    values "log_name".toList (print (getFields m name)) =
        extra "log_name".toList m.unitType ++ [name] ∧
      values "unit_number".toList (print (getFields m name)) = [m.unitNumber] ∧
      values "log_time".toList (print (getFields m name)) =
        extra "log_time".toList m.unitType ++ [m.logStartTime] := by
  have hv {key : Text} (hk : IsKey key) :
      values key (print (getFields m name)) = (getFields m name).flatMap (gives key) := by
    refine values_print hk (List.cons_ne_nil _ _) ?_
    simp only [getFields, List.forall_mem_cons, List.not_mem_nil, false_imp_iff, implies_true,
      and_true]
    decide
  have hnone : extra "unit_number".toList m.unitType = [] :=
    extra_of_length_lt (Nat.lt_of_le_of_lt ht (by decide))
  simp only [getFields] at hv ⊢
  refine ⟨?_, ?_, ?_⟩
  · rw [hv (by decide), List.flatMap_cons, List.flatMap_cons, List.flatMap_cons,
      List.flatMap_singleton, gives_of_ne (by decide), gives_of_not_mem (by decide) hn,
      gives_of_not_mem (by decide) hl, gives_self_of_not_mem _ hname]
    rfl
  · rw [hv (by decide), List.flatMap_cons, List.flatMap_cons, List.flatMap_cons,
      List.flatMap_singleton, gives_of_ne (by decide), gives_self_of_not_mem _ hn,
      gives_of_not_mem (by decide) hl, gives_of_not_mem (by decide) hname, hnone]
    rfl
  · rw [hv (by decide), List.flatMap_cons, List.flatMap_cons, List.flatMap_cons,
      List.flatMap_singleton, gives_of_ne (by decide), gives_of_not_mem (by decide) hn,
      gives_self_of_not_mem _ hl, gives_of_not_mem (by decide) hname]
    rfl

/-- What the POST says, if no value but the unit number has an `&`. -/
theorem values_postQuery (hu : config.unitNumber.length ≤ 10) (hl : '&' ∉ m.logStartTime)
    (hname : '&' ∉ name) :
    values "log_name".toList (print (postFields config m name)) =
        name :: extra "log_name".toList config.unitNumber ∧
      values "unit_number".toList (print (postFields config m name)) =
        [first config.unitNumber] ∧
      values "log_time".toList (print (postFields config m name)) =
        extra "log_time".toList config.unitNumber ++ [m.logStartTime] := by
  have hv {key : Text} (hk : IsKey key) :
      values key (print (postFields config m name)) =
        (postFields config m name).flatMap (gives key) := by
    refine values_print hk (List.cons_ne_nil _ _) ?_
    simp only [postFields, List.forall_mem_cons, List.not_mem_nil, false_imp_iff, implies_true,
      and_true]
    decide
  have hnone : extra "unit_number".toList config.unitNumber = [] :=
    extra_of_length_lt (Nat.lt_of_le_of_lt hu (by decide))
  simp only [postFields] at hv ⊢
  refine ⟨?_, ?_, ?_⟩
  · rw [hv (by decide), List.flatMap_cons, List.flatMap_cons, List.flatMap_singleton,
      gives_self_of_not_mem _ hname, gives_of_ne (by decide), gives_of_not_mem (by decide) hl,
      List.append_nil, List.singleton_append]
  · rw [hv (by decide), List.flatMap_cons, List.flatMap_cons, List.flatMap_singleton,
      gives_of_not_mem (by decide) hname, gives_self, gives_of_not_mem (by decide) hl, hnone]
    rfl
  · rw [hv (by decide), List.flatMap_cons, List.flatMap_cons, List.flatMap_singleton,
      gives_of_not_mem (by decide) hname, gives_of_ne (by decide), gives_self_of_not_mem _ hl,
      List.nil_append]

/-- The values of the query of a request. -/
theorem isValue_of_mem_query {key v request : Text} (h : v ∈ values key (query request)) :
    IsValue v := by
  obtain ⟨hv, hin⟩ := mem_values h
  refine ⟨fun c hc => spaceless_beforeSpace _ c (hin.subset ?_), hv⟩
  exact List.mem_append_right _ (List.mem_cons_of_mem _ hc)

/-- A text without a space that adds neither a name nor a time. -/
theorem keepsApart_iff (h : s.length ≤ 10) :
    KeepsApart s ↔
      Spaceless s ∧ extra "log_name".toList s = [] ∧ extra "log_time".toList s = [] := by
  rw [KeepsApart, extra_eq_nil_iff (by decide) (Nat.le_trans h (by decide)),
    extra_eq_nil_iff (by decide) (Nat.le_trans h (by decide))]
  rfl

theorem identifies_getLine_iff (ht : m.unitType.length ≤ 10) (hname : IsValue name) :
    Identifies (query (getLine (getUri m name))) name m ↔
      KeepsApart m.unitType ∧ IsValue m.unitNumber ∧ IsValue m.logStartTime := by
  have hfields (htype : Spaceless m.unitType) (hn : IsValue m.unitNumber)
      (hl : IsValue m.logStartTime) : ∀ f ∈ getFields m name, Unbroken f := by
    simp only [getFields, List.forall_mem_cons, List.not_mem_nil, false_imp_iff, implies_true,
      and_true]
    exact ⟨unbroken_mk (by decide) htype, unbroken_mk (by decide) hn.1,
      unbroken_mk (by decide) hl.1, unbroken_mk (by decide) hname.1⟩
  rw [keepsApart_iff ht]
  constructor
  · rintro ⟨hnames, hnumbers, htimes⟩
    have hn : IsValue m.unitNumber := isValue_of_mem_query (hnumbers ▸ List.mem_singleton_self _)
    have hl : IsValue m.logStartTime := isValue_of_mem_query (htimes ▸ List.mem_singleton_self _)
    have htype : Spaceless m.unitType := by
      by_contra hspace
      -- the query ends within the type, and there is no unit number in it
      obtain ⟨rest, hquery⟩ := query_getLine m name
      have hnone :
          gives "unit_number".toList ("unit_type".toList, beforeSpace m.unitType) = [] := by
        rw [gives_of_ne (by decide), extra_of_length_lt]
        exact Nat.lt_of_lt_of_le (length_beforeSpace_lt hspace) (Nat.le_trans ht (by decide))
      have hcut : values "unit_number".toList (query (getLine (getUri m name))) = [] := by
        rw [hquery, ← hnone]
        exact values_print_of_space [] _ _ (by decide) (fun _ h => absurd h List.not_mem_nil)
          (by decide) (fun _ h => absurd h List.not_mem_nil) (by decide) hspace
      rw [hcut] at hnumbers
      cases hnumbers
    obtain ⟨hvnames, -, hvtimes⟩ := values_getQuery ht hn.2 hl.2 hname.2
    rw [query_getLine_of_spaceless (hfields htype hn hl)] at hnames htimes
    rw [hvnames, List.append_left_eq_self] at hnames
    rw [hvtimes, List.append_left_eq_self] at htimes
    exact ⟨⟨htype, hnames, htimes⟩, hn, hl⟩
  · rintro ⟨⟨htype, hnames, htimes⟩, hn, hl⟩
    obtain ⟨hvnames, hvnumbers, hvtimes⟩ := values_getQuery ht hn.2 hl.2 hname.2
    rw [query_getLine_of_spaceless (hfields htype hn hl), Identifies, hvnames, hvnumbers, hvtimes,
      hnames, htimes]
    exact ⟨rfl, rfl, rfl⟩

theorem identifies_postHeader_iff (hu : config.unitNumber.length ≤ 10) (hname : IsValue name) :
    Identifies (query (postHeader config m name n)) name m ↔
      KeepsApart config.unitNumber ∧ first config.unitNumber = m.unitNumber ∧
        IsValue m.logStartTime := by
  have hfields (hnumber : Spaceless config.unitNumber) (hl : IsValue m.logStartTime) :
      ∀ f ∈ postFields config m name, Unbroken f := by
    simp only [postFields, List.forall_mem_cons, List.not_mem_nil, false_imp_iff, implies_true,
      and_true]
    exact ⟨unbroken_mk (by decide) hname.1, unbroken_mk (by decide) hnumber,
      unbroken_mk (by decide) hl.1⟩
  rw [keepsApart_iff hu]
  constructor
  · rintro ⟨hnames, hnumbers, htimes⟩
    have hl : IsValue m.logStartTime := isValue_of_mem_query (htimes ▸ List.mem_singleton_self _)
    have hnumber : Spaceless config.unitNumber := by
      by_contra hspace
      -- the query ends within the unit number, and there is no time in it
      obtain ⟨rest, hquery⟩ := query_postHeader config m name n
      have hnone : [("log_name".toList, name)].flatMap (gives "log_time".toList) ++
          gives "log_time".toList ("unit_number".toList, beforeSpace config.unitNumber) = [] := by
        rw [List.flatMap_singleton, gives_of_not_mem (by decide) hname.2, gives_of_ne (by decide),
          extra_of_length_lt]
        · rfl
        · exact Nat.lt_of_lt_of_le (length_beforeSpace_lt hspace) (Nat.le_trans hu (by decide))
      have hkey : IsKey "log_name".toList := by decide
      have hcut : values "log_time".toList (query (postHeader config m name n)) = [] := by
        rw [hquery, ← hnone]
        exact values_print_of_space [("log_name".toList, name)] _ _ (by decide)
          (List.forall_mem_singleton.2 hkey) (by decide)
          (List.forall_mem_singleton.2 (unbroken_mk (by decide) hname.1)) (by decide) hspace
      rw [hcut] at htimes
      cases htimes
    obtain ⟨hvnames, hvnumbers, hvtimes⟩ := values_postQuery hu hl.2 hname.2
    rw [query_postHeader_of_spaceless (hfields hnumber hl)] at hnames hnumbers htimes
    rw [hvnames, List.cons.injEq] at hnames
    rw [hvnumbers, List.singleton_inj] at hnumbers
    rw [hvtimes, List.append_left_eq_self] at htimes
    exact ⟨⟨hnumber, hnames.2, htimes⟩, hnumbers, hl⟩
  · rintro ⟨⟨hnumber, hnames, htimes⟩, hsame, hl⟩
    obtain ⟨hvnames, hvnumbers, hvtimes⟩ := values_postQuery hu hl.2 hname.2
    rw [query_postHeader_of_spaceless (hfields hnumber hl), Identifies, hvnames, hvnumbers,
      hvtimes, hnames, htimes, hsame]
    exact ⟨rfl, rfl, rfl⟩

/-! ## Names -/

/-- Printing a number into an array adds digits, a dot and a terminator. -/
theorem mem_sprintf {buf : List Char} {c : Char} (h : c ∈ sprintfNumToLogfileName n buf) :
    c ∈ buf ∨ c.isDigit = true ∨ c = '.' ∨ c = nul := by
  have hput {i w : ℕ} (h : c ∈ putAt i (zeroPad w n) buf) :
      c ∈ buf ∨ c.isDigit = true ∨ c = nul := by
    rw [putAt, List.mem_append, List.mem_append, List.mem_cons] at h
    rcases h with (h | h) | h | h
    · exact .inl (List.mem_of_mem_take h)
    · exact .inr (.inl (isDigit_of_mem_zeroPad c h))
    · exact .inr (.inr h)
    · exact .inl (List.mem_of_mem_drop h)
  rw [sprintfNumToLogfileName] at h
  rcases List.mem_or_eq_of_mem_set h with h | h
  · split at h
    · exact (hput h).imp_right (Or.imp_right .inr)
    · exact (hput h).imp_right (Or.imp_right .inr)
  · exact .inr (.inr (.inl h))

/-- The names of logs are values as they are. -/
theorem isValue_logName (n : ℕ) : IsValue (logName n) := by
  have hc {c : Char} (h : c ∈ logName n) : ¬ IsSpace c ∧ c ≠ '&' := by
    have hnul : c ≠ nul := ne_nul_of_mem_toText h
    rcases mem_sprintf ((List.takeWhile_sublist _).subset h) with h | h | rfl | h
    · have hspaceless : Spaceless defaultLogFileName := by decide
      have hamp : '&' ∉ defaultLogFileName := by decide
      exact ⟨hspaceless c h, ne_of_mem_of_not_mem h hamp⟩
    · constructor
      · rintro (rfl | rfl | rfl) <;> cases h
      · rintro rfl
        cases h
    · decide
    · exact absurd h hnul
  exact ⟨fun c h => (hc h).1, fun h => (hc h).2 rfl⟩

namespace Device

variable {x : Exchange} {d e : Device}

/-! ## The requests of an upload -/

theorem requests_of_extends (h : Extends (fun ev => ev.request = none) d e) :
    requests e.trace = requests d.trace := by
  obtain ⟨es, ht, hes⟩ := h
  rw [ht, requests, List.filterMap_append, List.filterMap_eq_nil_iff.2 hes]
  rfl

theorem ofWrite_request (ev : Event) (h : ev.OfWrite) : ev.request = none := by
  cases ev <;> first | rfl | exact absurd h id

theorem isRemoved_request (ev : Event) (h : ev.IsRemoved) : ev.request = none := by
  cases ev <;> first | rfl | exact absurd h id

/-- An upload asks for the file, and posts it if the server does not have it. -/
theorem requests_uploadFile (h₁ : x.getStatus = 404) (h₂ : x.connects = true) :
    requests (d.uploadFile x name).2.trace =
      postHeader d.config x.logMeta name (d.fileSize name) ::
        getLine (getUri x.logMeta name) :: requests d.trace := by
  have hposting : requests ((d.asked x name).posting x name).trace =
      postHeader d.config x.logMeta name (d.fileSize name) ::
        getLine (getUri x.logMeta name) :: requests d.trace := rfl
  rw [← hposting]
  refine requests_of_extends ?_
  have hsend {b : Bool} {e : Device} (hs : (d.asked x name).send x name = (b, e)) :
      Extends (fun ev => ev.request = none) ((d.asked x name).posting x name) e := by
    have hs' : ((d.asked x name).send x name).2 = e := by rw [hs]
    rw [← hs', send]
    refine sendLoop_induct (P := Extends _ _) (fun bytes f hf => ?_) (fun k f hf => ?_)
      (fun f hf => hf.trans (.of_eq rfl)) (.refl _)
    · exact hf.trans (.of_cons (e := .bodySent bytes) rfl rfl)
    · exact hf.trans (((reopenFile_extends _ f).trans (flushSdFile_extends _)).mono
        ofWrite_request)
  rcases hs : (d.asked x name).send x name with ⟨b, e⟩
  exact (hsend hs).trans
    (uploadFile_extends_of_send h₁ h₂ hs ofWrite_request isRemoved_request rfl rfl)

theorem sameLog_uploadFile (h₁ : x.getStatus = 404) (h₂ : x.connects = true) :
    SameLog d (d.uploadFile x name).2 name m ↔
      Identifies (query (getLine (getUri x.logMeta name))) name m ∧
        Identifies (query (postHeader d.config x.logMeta name (d.fileSize name))) name m := by
  rw [SameLog, requests_uploadFile h₁ h₂]
  constructor
  · rintro ⟨get, post, heq, h⟩
    rw [List.cons.injEq, List.cons.injEq] at heq
    obtain ⟨rfl, rfl, -⟩ := heq
    exact h
  · exact fun h => ⟨_, _, rfl, h⟩

/-- The two requests of an upload name the log with what is in its header, if and only if no
    text ends the query or adds to it, and the header has the unit number that is configured. -/
theorem sameLog_iff (conv : FloatConversion) (root : Option Json) {file : Bytes}
    (hconf : d.config = readConfigFile conv root) (hfile : d.card.lookup (logName n) = some file)
    (hheader : HeaderOf deserializeJson file m)
    (hmeta : (d.card.lookup (logName n)).bind (LogFileMeta.read deserializeJson) = some x.logMeta)
    (h₁ : x.getStatus = 404) (h₂ : x.connects = true) :
    SameLog d (d.uploadFile x (logName n)).2 (logName n) m ↔ Unmistakable d.config m := by
  have hm : x.logMeta = m := by
    rw [hfile, Option.bind_some, hheader.read] at hmeta
    exact (Option.some.inj hmeta).symm
  have ht : m.unitType.length ≤ 10 := Nat.le_of_lt_succ hheader.unitType.1
  have hu : d.config.unitNumber.length ≤ 10 := by
    rw [hconf]
    exact (readConfigFile_configured conv root).unitNumber
  rw [sameLog_uploadFile h₁ h₂, hm, identifies_getLine_iff ht (isValue_logName n),
    identifies_postHeader_iff hu (isValue_logName n)]
  constructor
  · rintro ⟨⟨htype, -, hl⟩, hnumber, hsame, -⟩
    exact ⟨htype, hl, hnumber, hsame⟩
  · intro h
    -- the unit number of the header is a part of the one that is configured
    have hn : IsValue m.unitNumber := by
      rw [← h.sameUnit]
      exact ⟨fun c hc => h.configured.1 c ((List.takeWhile_sublist _).subset hc),
        not_mem_first _⟩
    exact ⟨⟨h.unitType, hn, h.logStartTime⟩, h.configured, h.sameUnit, h.logStartTime⟩

/-! ## Two configurations -/

/-- When a log was started. -/
def started : Clock := { rtc := 1610331025, millis := 42 }

/-- The log of a tractor. -/
def tractorLog : Bytes :=
  headerLine (readConfigFile truncation (some tractor)) started ++ crlf ++ headerColumns

/-- What its header says. -/
def tractorMeta : LogFileMeta where
  unitNumber := "7".toList
  unitType := "Tractor".toList
  logStartTime := "2021-01-11T02:10:25.042Z".toList

/-- The tractor, after it was given another number. -/
def renumbered : Json :=
  .object
    [("unit_type".toList, .string "Tractor".toList),
      ("unit_number".toList, .string "8".toList)]

/-- A card with the log of the tractor, under a configuration. -/
def withTractorLog (root : Json) : Device :=
  { Device.initial (.singleton (logName 1) tractorLog) ⟨2, 1, 1, 1⟩ with
    config := readConfigFile truncation (some root) }

/-- The server does not have the log. -/
def notFound : Exchange := { logMeta := tractorMeta, getStatus := 404 }

theorem lookup_withTractorLog (root : Json) :
    (withTractorLog root).card.lookup (logName 1) = some tractorLog := Finmap.lookup_singleton_eq

theorem headerOf_tractorLog : HeaderOf Json.parse tractorLog tractorMeta := by
  have htime : setCurrentTimeInBuffer started.rtc started.millis =
      "2021-01-11T02:10:25.042Z".toList := by decide
  have hrtc : started.rtc < 2 ^ 32 := by decide
  have h := headerOf_headerLine (readConfigFile_configured truncation tractor) tractor_readable
    hrtc readsJson_parse headerColumns
  rw [htime] at h
  exact h

theorem read_withTractorLog (root : Json) :
    ((withTractorLog root).card.lookup (logName 1)).bind (LogFileMeta.read Json.parse) =
      some notFound.logMeta := by
  rw [lookup_withTractorLog, Option.bind_some, headerOf_tractorLog.read]
  rfl

/-- The log is posted under the configuration that it was written with. -/
theorem sameLog_tractor :
    SameLog (withTractorLog tractor)
      ((withTractorLog tractor).uploadFile notFound (logName 1)).2 (logName 1) tractorMeta := by
  refine (sameLog_iff truncation (some tractor) rfl (lookup_withTractorLog _) headerOf_tractorLog
    (read_withTractorLog _) rfl rfl).2 ⟨⟨?_, ?_, ?_⟩, ⟨?_, ?_⟩, ⟨?_, ?_, ?_⟩, ?_⟩
  all_goals decide

/-- The log is posted under another number. -/
theorem not_sameLog_renumbered :
    ¬ SameLog (withTractorLog renumbered)
      ((withTractorLog renumbered).uploadFile notFound (logName 1)).2 (logName 1) tractorMeta := by
  intro h
  have hpost := ((sameLog_uploadFile rfl rfl).1 h).2
  have hu : (withTractorLog renumbered).config.unitNumber.length ≤ 10 :=
    (readConfigFile_configured truncation (some renumbered)).unitNumber
  have hsame := ((identifies_postHeader_iff hu (isValue_logName 1)).1 hpost).2.1
  exact absurd hsame (by decide)

end Device

end CanInsight
