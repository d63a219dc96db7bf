import QubesSnitch.HostnameAnswers
import QubesSnitch.PromptLine
import QubesSnitch.Lib.JsonPrefix

/-!
# The line protocol of the CLI

Over a connection of the socket the daemon sends the request of a prompt as one line of JSON, and the CLI sends back one
line with the answer.  Both lines are ASCII, so that characters are bytes.

The CLI reads back the request that was sent (`ofJson_loads`).  Where a connection breaks, the daemon reads no answer, the
answer to the prompt that was shown, or the same action for the address of the prompt alone (`session_decision`).
-/

namespace QubesSnitch

open Json (Value)

/-! ### Requests as JSON -/

namespace JsonText

def codes (s : String) : List Nat := s.toList.map Char.toNat

/-- The string with these code points, if none is a surrogate. -/
def string? (s : List Nat) : Option String :=
  (s.mapM fun n : Nat => if h : n.isValidChar then some (Char.ofNatAux n h) else none).map String.ofList

theorem string?_codes (s : String) : string? (codes s) = some s := by
  have hchars : ∀ l : List Char, ((l.map Char.toNat).mapM fun n : Nat =>
      if h : n.isValidChar then some (Char.ofNatAux n h) else none) = some l := by
    intro l
    induction l with
    | nil => rfl
    | cons c l ih =>
      have hvalid : c.toNat.isValidChar := c.valid
      rw [List.map_cons, List.mapM_cons, ih, dif_pos hvalid]
      rfl
  rw [string?, codes, hchars, Option.map_some, String.ofList_toList]

theorem codes_injective : Function.Injective codes := fun s t h => by
  have hs := string?_codes s
  rw [h, string?_codes] at hs
  exact (Option.some.inj hs).symm

/-- No character is a surrogate. -/
theorem isText_codes (s : String) : Json.IsText (codes s) := by
  have hvalid : ∀ n ∈ codes s, n < 0x110000 ∧ Json.isHigh n = false := by
    intro n hn
    obtain ⟨c, -, rfl⟩ := List.mem_map.1 hn
    have hc : c.toNat.isValidChar := c.valid
    unfold Nat.isValidChar at hc
    simp only [Json.isHigh, Bool.and_eq_false_iff, decide_eq_false_iff_not]
    omega
  refine ⟨fun n hn => (hvalid n hn).1, ?_⟩
  generalize codes s = l at hvalid
  induction l with
  | nil => exact .nil
  | cons n l ih =>
    have hl := ih fun m hm => hvalid m (List.mem_cons_of_mem _ hm)
    cases l with
    | nil => exact .singleton n
    | cons m l =>
      refine List.isChain_cons_cons.2 ⟨?_, hl⟩
      rintro ⟨hhigh, -⟩
      rw [(hvalid n (List.mem_cons_self ..)).2] at hhigh
      cases hhigh

end JsonText

open JsonText

def jsonText (s : String) : Value := .str (codes s)

def jsonNat (n : Nat) : Value := .int n

def jsonAddresses (ips : List IPv4) : Value := .arr (ips.map fun ip => jsonText ip.text)

/-- `request.get("kind")` -/
def Kind.name? : Kind → Option String
  | flow => none
  | dns _ _ => some "dns"
  | dnsError _ _ => some "dns-error"

/-- `request.get("dns_error")` -/
def Kind.reason? : Kind → Option String
  | dnsError reason _ => some reason
  | _ => none

def Kind.question? : Kind → Option (String × String)
  | flow => none
  | dns qname qtype => some (qname, qtype)
  | dnsError _ question => question

/-- The keys of a request that `json.dumps` is given, without the body; a missing key has no value. -/
def requestFields (r : Request) : List (String × Option Value) :=
  [("src", some (jsonText r.src.text)), ("dst", some (jsonText r.dst.text)), ("proto", some (jsonText r.proto.name)),
    ("sport", some (r.sport.elim .null jsonNat)), ("dport", some (r.dport.elim .null jsonNat)),
    ("malformed", r.malformed.map jsonText), ("source", some (jsonText r.source)),
    ("display_source", some (jsonText r.displaySource)), ("source_label", r.sourceLabel.map jsonText),
    ("host", some (r.host.elim .null jsonText)), ("kind", r.kind.name?.map jsonText),
    ("dns_error", r.kind.reason?.map jsonText), ("qname", r.kind.question?.map fun q => jsonText q.1),
    ("qtype", r.kind.question?.map fun q => jsonText q.2),
    ("_prompt_id", r.promptId.map jsonNat), ("remaining", r.remaining.map jsonNat),
    ("_resolved_dests", r.resolvedDests.map jsonAddresses)]

def presentFields (fields : List (String × Option Value)) : List (List Nat × Value) :=
  fields.filterMap fun field => field.2.map fun v => (codes field.1, v)

def requestJson (r : Request) : Value := .obj (presentFields (requestFields r))

/-- `json.dumps(request, sort_keys=True)` and the end of the line. -/
def requestLine (r : Request) : List Char := Json.dumps (requestJson r) ++ ['\n']

/-! ### Requests from JSON -/

def JsonText.read? : Value → Option String
  | .str s => string? s
  | _ => none

def readNat? : Value → Option Nat
  | .int n => if 0 ≤ n then some n.toNat else none
  | _ => none

def readAddress? (v : Value) : Option IPv4 := (read? v).bind fun s => ipv4Address s.toList

def readProto? (v : Value) : Option Proto :=
  (read? v).bind fun s =>
    match FlowProto.ofName? s with
    | some p => some (.flow p)
    | none => (Py.int s.toList).map .number

def readAddresses? : Value → Option (List IPv4)
  | .arr items => items.mapM readAddress?
  | _ => none

/-- A key that may be missing. -/
def optionalField {α : Type} (read : Value → Option α) : Option Value → Option (Option α)
  | none => some none
  | some v => (read v).map some

/-- A key whose value may be `None`. -/
def nullable {α : Type} (read : Value → Option α) : Value → Option (Option α)
  | .null => some none
  | v => (read v).map some

/-- `qname` and `qtype` come together. -/
def readQuestion? (field : String → Option Value) : Option (Option (String × String)) :=
  match field "qname", field "qtype" with
  | none, none => some none
  | some qname, some qtype => (read? qname).bind fun qname => (read? qtype).map fun qtype => some (qname, qtype)
  | _, _ => none

def readKind? (field : String → Option Value) : Option Kind := do
  let question ← readQuestion? field
  match field "kind" with
  | none => if question.isNone then some .flow else none
  | some kind =>
    match ← read? kind with
    | "dns" => question.map fun q => .dns q.1 q.2
    | "dns-error" => do
      let reason ← (field "dns_error").bind read?
      return .dnsError reason question
    | _ => none

/-- What the CLI reads of the keys of a request. -/
def requestOfJson (v : Value) : Option Request := do
  let field (key : String) := v.get? (codes key)
  let src ← (field "src").bind readAddress?
  let dst ← (field "dst").bind readAddress?
  let proto ← (field "proto").bind readProto?
  let sport ← (field "sport").bind (nullable readNat?)
  let dport ← (field "dport").bind (nullable readNat?)
  let malformed ← optionalField read? (field "malformed")
  let source ← (field "source").bind read?
  let displaySource ← (field "display_source").bind read?
  let sourceLabel ← optionalField read? (field "source_label")
  let host ← (field "host").bind (nullable read?)
  let kind ← readKind? field
  let promptId ← optionalField readNat? (field "_prompt_id")
  let remaining ← optionalField readNat? (field "remaining")
  let resolvedDests ← optionalField readAddresses? (field "_resolved_dests")
  return { src, dst, proto, sport, dport, body := none, malformed, source, displaySource, sourceLabel, host, kind, promptId,
           remaining, resolvedDests }

/-! ### Round trip -/

section RoundTrip

theorem read?_jsonText (s : String) : read? (jsonText s) = some s := string?_codes s

theorem readNat?_jsonNat (n : Nat) : readNat? (jsonNat n) = some n := rfl

theorem readAddress?_jsonText (x : IPv4) : readAddress? (jsonText x.text) = some x := by
  rw [readAddress?, read?_jsonText, Option.bind_some, IPv4.text, String.toList_ofList, ipv4Address_chars]

theorem readProto?_jsonText (p : Proto) : readProto? (jsonText p.name) = some p := by
  rw [readProto?, read?_jsonText, Option.bind_some]
  cases p with
  | flow p => rw [Proto.name, FlowProto.ofName?_name]
  | number n =>
    have htext : (toString n).toList = Py.decimal n := Nat.toList_repr
    have hname : FlowProto.ofName? (toString n) = none := by
      refine List.find?_eq_none.2 fun p _ hp => ?_
      have hp : p.name = toString n := by simpa using hp
      obtain ⟨c, t, hc⟩ := List.exists_cons_of_ne_nil (Json.decimal_ne_nil n)
      have hd : c.isDigit := Py.isDigit_of_mem_decimal (hc ▸ List.mem_cons_self ..)
      have hhead : p.name.toList.head? = some c := by rw [hp, htext, hc, List.head?_cons]
      cases p <;> cases hhead <;> cases hd
    rw [Proto.name, hname, htext, Py.int_decimal]
    rfl

theorem readAddresses?_jsonAddresses (ips : List IPv4) : readAddresses? (jsonAddresses ips) = some ips := by
  rw [jsonAddresses, readAddresses?]
  induction ips with
  | nil => rfl
  | cons ip ips ih =>
    rw [List.map_cons, List.mapM_cons, readAddress?_jsonText, ih]
    rfl

theorem keys_requestFields (r : Request) : ((requestFields r).map Prod.fst).Nodup := by
  have hkeys : (["src", "dst", "proto", "sport", "dport", "malformed", "source", "display_source", "source_label", "host",
      "kind", "dns_error", "qname", "qtype", "_prompt_id", "remaining", "_resolved_dests"]).Nodup := by decide
  exact hkeys

/-- The values of a request. -/
inductive FieldValue : Value → Prop
  | null : FieldValue .null
  | text (s : String) : FieldValue (jsonText s)
  | nat (n : Nat) : FieldValue (jsonNat n)
  | addresses (ips : List IPv4) : FieldValue (jsonAddresses ips)

theorem FieldValue.of_elim {α : Type} {o : Option α} {f : α → Value} (hf : ∀ a, FieldValue (f a)) :
    FieldValue (o.elim .null f) := by
  cases o with
  | none => exact .null
  | some a => exact hf a

theorem FieldValue.of_map {α : Type} {o : Option α} {f : α → Value} (hf : ∀ a, FieldValue (f a)) :
    ∀ v ∈ o.map f, FieldValue v := by
  rintro v hv
  obtain ⟨a, -, rfl⟩ := Option.mem_map.1 hv
  exact hf a

theorem fieldValue_of_mem (r : Request) : ∀ field ∈ requestFields r, ∀ v ∈ field.2, FieldValue v := by
  have hsome : ∀ {w : Value}, FieldValue w → ∀ v ∈ some w, FieldValue v := by
    rintro w hw v ⟨⟩
    exact hw
  simp only [requestFields, List.forall_mem_cons, List.not_mem_nil, false_imp_iff, implies_true, and_true]
  refine ⟨hsome (.text _), hsome (.text _), hsome (.text _), hsome (.of_elim .nat), hsome (.of_elim .nat), .of_map .text,
    hsome (.text _), hsome (.text _), .of_map .text, hsome (.of_elim .text), .of_map .text, .of_map .text,
    .of_map fun q => .text q.1, .of_map fun q => .text q.2, .of_map .nat, .of_map .nat, .of_map .addresses⟩

theorem mem_presentFields {fields : List (String × Option Value)} {e : List Nat × Value} :
    e ∈ presentFields fields ↔ ∃ field ∈ fields, field.2 = some e.2 ∧ codes field.1 = e.1 := by
  simp only [presentFields, List.mem_filterMap, Option.map_eq_some_iff]
  constructor
  · rintro ⟨field, hfield, v, hv, rfl⟩
    exact ⟨field, hfield, hv, rfl⟩
  · rintro ⟨field, hfield, hv, hkey⟩
    exact ⟨field, hfield, e.2, hv, by rw [hkey]⟩

theorem keys_presentFields {fields : List (String × Option Value)} (h : (fields.map Prod.fst).Nodup) :
    ((presentFields fields).map Prod.fst).Nodup := by
  induction fields with
  | nil => exact List.nodup_nil
  | cons field fields ih =>
    obtain ⟨name, o⟩ := field
    obtain ⟨hname, hfields⟩ := List.nodup_cons.1 h
    cases o with
    | none => exact ih hfields
    | some v =>
      refine List.nodup_cons.2 ⟨?_, ih hfields⟩
      intro hmem
      obtain ⟨e, he, hkey⟩ := List.mem_map.1 hmem
      obtain ⟨field, hfield, -, hcodes⟩ := mem_presentFields.1 he
      rw [hkey] at hcodes
      exact hname (codes_injective hcodes ▸ List.mem_map_of_mem hfield)

theorem clean_requestJson (r : Request) : Json.Clean (requestJson r) := by
  refine .obj (keys_presentFields (keys_requestFields r)) ?_ ?_
  · intro e he
    obtain ⟨field, -, -, hkey⟩ := mem_presentFields.1 he
    exact hkey ▸ isText_codes field.1
  · rintro ⟨key, v⟩ he
    obtain ⟨field, hfield, hv, -⟩ := mem_presentFields.1 he
    cases fieldValue_of_mem r field hfield v hv with
    | null => exact .null
    | text s => exact .str (isText_codes s)
    | nat n => exact .int n
    | addresses ips =>
      refine .arr fun v hv => ?_
      obtain ⟨ip, -, rfl⟩ := List.mem_map.1 hv
      exact .str (isText_codes ip.text)

theorem get?_presentFields {fields : List (String × Option Value)} (h : (fields.map Prod.fst).Nodup) (key : String) :
    (Value.obj (presentFields fields)).get? (codes key) = (fields.lookup key).join := by
  induction fields with
  | nil => rfl
  | cons field fields ih =>
    obtain ⟨name, o⟩ := field
    obtain ⟨hname, hfields⟩ := List.nodup_cons.1 h
    have ih := ih hfields
    by_cases hkey : key = name
    · subst hkey
      rw [List.lookup_cons_self]
      cases o with
      | none =>
        have hnone : fields.lookup key = none := by
          rw [List.lookup_eq_none_iff]
          intro p hp
          have hmem : p.1 ∈ fields.map Prod.fst := List.mem_map_of_mem hp
          have hne : key ≠ p.1 := fun hk => hname (hk ▸ hmem)
          simpa using hne
        rw [hnone] at ih
        exact ih
      | some v =>
        show ((List.find? _ ((codes key, v) :: presentFields fields)).map Prod.snd) = _
        rw [List.find?_cons_of_pos (by simp)]
        rfl
    · have hcodes : codes name ≠ codes key := fun h => hkey (codes_injective h).symm
      rw [List.lookup_cons, beq_false_of_ne hkey, ← ih]
      cases o with
      | none => rfl
      | some v =>
        show ((List.find? _ ((codes name, v) :: presentFields fields)).map Prod.snd) = _
        rw [List.find?_cons_of_neg (by simpa using hcodes)]
        rfl

/-- A field of the text is the field of the request. -/
theorem get?_requestJson (r : Request) (key : String) :
    (Json.sortKeys (requestJson r)).get? (codes key) = ((requestFields r).lookup key).join := by
  rw [requestJson, Json.get?_sortKeys (keys_presentFields (keys_requestFields r)), get?_presentFields (keys_requestFields r)]
  cases hv : (requestFields r).lookup key with
  | none => rfl
  | some o =>
    cases o with
    | none => rfl
    | some v =>
      obtain ⟨l, l', hfields, -⟩ := List.lookup_eq_some_iff.1 hv
      have hmem : (key, some v) ∈ requestFields r := by simp [hfields]
      cases fieldValue_of_mem r _ hmem v rfl with
      | null => rfl
      | text s => rfl
      | nat n => rfl
      | addresses ips =>
        simp only [Option.join_some, Option.map_some, jsonAddresses, Json.sortKeys, Json.sortItems_eq, List.map_map]
        rfl

theorem nullable_elim {α : Type} {read : Value → Option α} {f : α → Value} (hf : ∀ a, read (f a) = some a)
    (hnull : ∀ a, f a ≠ .null) (o : Option α) : nullable read (o.elim .null f) = some o := by
  cases o with
  | none => rfl
  | some a =>
    unfold nullable
    split
    · rename_i hv
      exact absurd hv (hnull a)
    · simp [hf a]

theorem optionalField_map {α : Type} {read : Value → Option α} {f : α → Value} (hf : ∀ a, read (f a) = some a)
    (o : Option α) : optionalField read (o.map f) = some o := by
  cases o with
  | none => rfl
  | some a => simp [optionalField, hf a]

theorem readKind?_requestFields (r : Request) :
    readKind? (fun key => ((requestFields r).lookup key).join) = some r.kind := by
  simp only [readKind?, readQuestion?, requestFields, List.lookup, String.reduceBEq, Option.join_some]
  cases r.kind with
  | flow => rfl
  | dns qname qtype => simp [Kind.name?, Kind.question?, read?_jsonText]
  | dnsError reason question => cases question <;> simp [Kind.name?, Kind.question?, Kind.reason?, read?_jsonText]

/-- The CLI reads the request that was sent. -/
theorem requestOfJson_requestJson (r : Request) :
    requestOfJson (Json.sortKeys (requestJson r)) = some (requestWithoutBody r) := by
  have htext : ∀ s, jsonText s ≠ .null := nofun
  have hnat : ∀ n, jsonNat n ≠ .null := nofun
  rw [requestOfJson]
  simp only [get?_requestJson, readKind?_requestFields]
  simp only [requestFields, List.lookup, String.reduceBEq, Option.join_some, Option.bind_some, readAddress?_jsonText,
    readProto?_jsonText, read?_jsonText, nullable_elim readNat?_jsonNat hnat, nullable_elim read?_jsonText htext,
    optionalField_map read?_jsonText, optionalField_map readNat?_jsonNat, optionalField_map readAddresses?_jsonAddresses,
    Option.bind_eq_bind]
  rfl

end RoundTrip

/-! ### The CLI -/

/-- `readline` on a text stream, where every kind of line end is one. -/
def readline (received : List Char) : List Char :=
  let line := received.takeWhile fun c => c ≠ '\n' && c ≠ '\r'
  if line.length < received.length then line ++ ['\n'] else line

/-- What the prompt shows of a request. -/
def promptRequest (r : Request) : PromptRequest where
  source := text r.source
  displaySource := some (text r.displaySource)
  sourceUnknown := false
  sourceLabel := r.sourceLabel.map text
  dst := text r.dst.text
  host := r.host.map text
  question := match r.kind with
    | .dns qname qtype => .dns (text qname) (text qtype)
    | _ => .flow (text r.proto.name) (r.dport.map Int.ofNat)
  remaining := r.remaining.map Int.ofNat
  resolvedDests := r.resolvedDests.map fun ips => ips.map fun ip => text ip.text

/-- How a connection of the CLI ends: nothing came, an exception, or the keys that were pressed in front of a row. -/
inductive CliEnd where
  | closed
  | raised
  | asked (shown : Request) (row : Text) (decision : Option Decision)

section Cli

variable (lib : DnsPython) (resolver : Resolver) (ucd : UnicodeData) (getservbyport : GetServByPort) (config : PromptConfig)

/-- `handle_request`, with the keys that are pressed; without a key of a decision it still waits. -/
def handleRequest (received keys : List Char) : CliEnd :=
  let line := readline received
  if line = [] then .closed
  else match (Json.loads line).bind requestOfJson with
    | none => .raised
    | some request =>
      match addHostnameChoices lib resolver request with
      | .error _ => .raised
      | .ok shown =>
        match packetLine ucd getservbyport (promptRequest shown) config with
        | .error _ => .raised
        | .ok row => .asked shown row (keys.findSome? (keyDecision shown))

/-- `ask(request, config) + "\n"` -/
def answerText (decision : Decision) : List Char := decision.name.toList ++ ['\n']

/-- `conn.makefile("r").readline().strip()` -/
def readAnswer (received : List Char) : CliReply := .line (String.ofList (Py.strip (readline received)))

/-- A connection where only `n` characters of the request and `m` of the answer arrive. -/
def session (r : Request) (keys : List Char) (n m : Nat) : CliReply :=
  match handleRequest lib resolver ucd getservbyport config ((requestLine r).take n) keys with
  | .asked _ _ (some decision) => readAnswer ((answerText decision).take m)
  | _ => readAnswer []

/-- The same action, for the address of the prompt alone. -/
def Decision.plain : Decision → Decision
  | allow | allowDns => allow
  | reject | rejectDns => reject

/-- A part of an answer is no answer, the answer, or the plain one. -/
theorem readAnswer_take (decision : Decision) (m : Nat) {d : Decision}
    (h : (readAnswer ((answerText decision).take m)).decision? = some d) : d = decision ∨ d = decision.plain := by
  have hshort : ∀ decision d, ∀ m < 12, (readAnswer ((answerText decision).take m)).decision? = some d →
      d = decision ∨ d = decision.plain := by
    intro decision d
    cases decision <;> cases d <;> decide +kernel
  by_cases hm : m < 12
  · exact hshort decision d m hm h
  · have hlength : (answerText decision).length ≤ 11 := by cases decision <;> decide
    rw [List.take_of_length_le (by omega), ← List.take_of_length_le hlength] at h
    exact hshort decision d 11 (by decide) h

theorem readAnswer_nil : (readAnswer []).decision? = none := by decide +kernel

theorem readAnswer_whole (decision : Decision) : (readAnswer (answerText decision)).decision? = some decision := by
  cases decision <;> decide +kernel

theorem readline_plain {t : List Char} (h : ∀ c ∈ t, Json.isPrintable c) : readline t = t := by
  have hline : t.takeWhile (fun c => c ≠ '\n' && c ≠ '\r') = t := by
    refine List.takeWhile_eq_self_iff.2 fun c hc => ?_
    have hprintable := h c hc
    rw [Bool.and_eq_true, decide_eq_true_eq, decide_eq_true_eq]
    constructor <;> rintro rfl <;> cases hprintable
  rw [readline, hline, if_neg (lt_irrefl _)]

theorem readline_newline {t : List Char} (h : ∀ c ∈ t, Json.isPrintable c) : readline (t ++ ['\n']) = t ++ ['\n'] := by
  have hline : (t ++ ['\n']).takeWhile (fun c => c ≠ '\n' && c ≠ '\r') = t := by
    rw [List.takeWhile_append_of_pos]
    · exact List.append_nil t
    · intro c hc
      have hprintable := h c hc
      rw [Bool.and_eq_true, decide_eq_true_eq, decide_eq_true_eq]
      constructor <;> rintro rfl <;> cases hprintable
  rw [readline, hline, if_pos (by simp)]

private theorem newline_blank : ∀ c ∈ ['\n'], Json.isBlank c := by
  intro c hc
  rw [List.mem_singleton.1 hc]
  rfl

/-- A part of a request is no request. -/
theorem loads_readline_take (r : Request) (n : Nat) {v : Value}
    (h : Json.loads (readline ((requestLine r).take n)) = some v) : v = Json.sortKeys (requestJson r) := by
  have hclean := (clean_requestJson r).sortKeys
  have hprintable : ∀ c ∈ Json.dumps (requestJson r), Json.isPrintable c := Json.printable_render hclean
  have hcut : ∀ p q, p ++ q = Json.dumps (requestJson r) → q ≠ [] → Json.loads p = none := fun p q =>
    Json.loads_of_prefix hclean
  have hwhole : ∀ t, (∀ c ∈ t, Json.isBlank c) → Json.loads (Json.dumps (requestJson r) ++ t) = some v →
      v = Json.sortKeys (requestJson r) := by
    intro t ht hread
    rw [Json.dumps, Json.loads_render_append hclean ht] at hread
    exact (Option.some.inj hread).symm
  obtain hle | hgt := le_or_gt n (Json.dumps (requestJson r)).length
  · have hpart : ∀ c ∈ (Json.dumps (requestJson r)).take n, Json.isPrintable c := fun c hc =>
      hprintable c (List.mem_of_mem_take hc)
    rw [requestLine, List.take_append_of_le_length hle, readline_plain hpart] at h
    obtain hlt | rfl := hle.lt_or_eq
    · rw [hcut _ _ (List.take_append_drop n _) (by simpa using hlt)] at h
      cases h
    · refine hwhole [] (by rintro _ ⟨⟩) ?_
      rwa [List.take_length, ← List.append_nil (Json.dumps _)] at h
  · rw [List.take_of_length_le (by simpa [requestLine] using hgt), requestLine, readline_newline hprintable] at h
    exact hwhole ['\n'] newline_blank h

theorem loads_requestLine (r : Request) :
    Json.loads (readline (requestLine r)) = some (Json.sortKeys (requestJson r)) := by
  have hclean := (clean_requestJson r).sortKeys
  have hprintable : ∀ c ∈ Json.dumps (requestJson r), Json.isPrintable c := Json.printable_render hclean
  rw [requestLine, readline_newline hprintable]
  exact Json.loads_render_append hclean newline_blank

/-- An answer that the daemon reads, wherever the connection broke, is what the first key of a decision meant in front of
the row of the whole request, or the same action for its address alone.  Where nothing is lost, it is what the key meant. -/
theorem session_decision (r : Request) (keys : List Char) (n m : Nat) :
    (∀ decision, (session lib resolver ucd getservbyport config r keys n m).decision? = some decision →
      ∃ shown row pressed, addHostnameChoices lib resolver (requestWithoutBody r) = .ok shown ∧
        packetLine ucd getservbyport (promptRequest shown) config = .ok row ∧
        keys.findSome? (keyDecision shown) = some pressed ∧ (decision = pressed ∨ decision = pressed.plain)) ∧
    ∀ shown row, addHostnameChoices lib resolver (requestWithoutBody r) = .ok shown →
      packetLine ucd getservbyport (promptRequest shown) config = .ok row →
      (requestLine r).length ≤ n → (∀ decision, (answerText decision).length ≤ m) →
      (session lib resolver ucd getservbyport config r keys n m).decision? = keys.findSome? (keyDecision shown) := by
  constructor
  · intro decision h
    unfold session at h
    split at h
    · rename_i shown row pressed hasked
      unfold handleRequest at hasked
      dsimp only at hasked
      split at hasked
      · cases hasked
      split at hasked
      · cases hasked
      rename_i request hrequest
      obtain ⟨v, hv, hrequest⟩ := Option.bind_eq_some_iff.1 hrequest
      obtain rfl := loads_readline_take r n hv
      rw [requestOfJson_requestJson] at hrequest
      obtain rfl := Option.some.inj hrequest
      split at hasked
      · cases hasked
      rename_i shown' hshown
      split at hasked
      · cases hasked
      rename_i row' hrow
      obtain ⟨rfl, rfl, hpressed⟩ := CliEnd.asked.inj hasked
      exact ⟨shown', row', pressed, hshown, hrow, hpressed, readAnswer_take pressed m h⟩
    · rw [readAnswer_nil] at h
      cases h
  · intro shown row hshown hrow hn hm
    have hline : readline (requestLine r) ≠ [] := by
      intro hnil
      have hread := loads_requestLine r
      rw [hnil] at hread
      cases hread
    have hasked : handleRequest lib resolver ucd getservbyport config ((requestLine r).take n) keys =
        .asked shown row (keys.findSome? (keyDecision shown)) := by
      rw [List.take_of_length_le hn, handleRequest]
      simp only [if_neg hline, loads_requestLine, Option.bind_some, requestOfJson_requestJson, hshown, hrow]
    rw [session, hasked]
    cases keys.findSome? (keyDecision shown) with
    | none => exact readAnswer_nil
    | some pressed =>
      show (readAnswer ((answerText pressed).take m)).decision? = some pressed
      rw [List.take_of_length_le (hm pressed), readAnswer_whole]

end Cli

namespace Sample

/-- Another key first, then the answer. -/
theorem session_decision_prompted :
    (session dnspython works.resolver unicodeData services promptConfig prompted ['x', 'r']
      (requestLine prompted).length 20).decision? =
      some .reject := by
  have hrow : ∃ row, packetLine unicodeData services (promptRequest prompted) promptConfig = .ok row :=
    ⟨_, rfl⟩
  obtain ⟨row, hrow⟩ := hrow
  have hanswers : ∀ decision, (answerText decision).length ≤ 20 := by
    intro decision
    cases decision <;> decide
  exact (session_decision dnspython works.resolver unicodeData services promptConfig prompted ['x', 'r']
    (requestLine prompted).length 20).2 prompted row rfl hrow le_rfl hanswers

end Sample

end QubesSnitch
