import QubesSnitch.Lib.Marks
import QubesSnitch.Display
import QubesSnitch.RuleFile

/-!
# Prompt lines

The CLI shows a question as one row of cells: how many questions wait, the source, the target, its DNS name, the service
and the keys of the answer.  Cells are padded to the widths of `config.yml` and coloured with terminal codes.
`packetLine` writes the row, and below it one row for each further address of a host name that the CLI resolved.
-/

namespace QubesSnitch

/-- The exceptions of the prompt; the messages are Unicode texts. -/
inductive PromptError where
  | systemExit (message : Text)
  | valueError (message : Text)
  | overflowError (message : Text)
  | osError (message : Text)
  deriving DecidableEq

/-! ### Configuration -/

inductive Theme where
  | dark
  | light
  deriving DecidableEq, Repr

/-- `prompt_column_widths`, each within its range. -/
structure PromptWidths where
  queue : Nat
  source : Nat
  target : Nat
  dns : Nat
  service : Nat
  queueRange : 1 ≤ queue ∧ queue ≤ 20
  sourceRange : 5 ≤ source ∧ source ≤ 80
  targetRange : 10 ≤ target ∧ target ≤ 200
  dnsRange : 10 ≤ dns ∧ dns ≤ 200
  serviceRange : 5 ≤ service ∧ service ≤ 80

def promptColumnWidthKeys : List Scalar := ["queue", "source", "target", "dns", "service"].map Scalar.str

/-- One width, with the check of its range. -/
def validatePromptColumnWidth (configFile : String) (entries : List (Scalar × Yaml)) (key : String)
    (minimum maximum : Nat) : Except PyError { width : Nat // minimum ≤ width ∧ width ≤ maximum } := do
  let error := .systemExit (configFile ++ ": prompt_column_widths." ++ key ++ " must be an integer from " ++
    toString minimum ++ " to " ++ toString maximum)
  match ← getItem entries key with
  | .scalar (.int (.ofNat width)) => if h : minimum ≤ width ∧ width ≤ maximum then .ok ⟨width, h⟩ else .error error
  | _ => .error error

def validatePromptColumnWidths (configFile : String) (value : Yaml) : Except PyError PromptWidths :=
  let error := .systemExit (configFile ++
    ": prompt_column_widths must contain exactly queue, source, target, dns, and service")
  match value with
  | .map entries =>
    let keys := entries.map Prod.fst
    if !(keys.all (· ∈ promptColumnWidthKeys) && promptColumnWidthKeys.all (· ∈ keys)) then .error error
    else do
      let queue ← validatePromptColumnWidth configFile entries "queue" 1 20
      let source ← validatePromptColumnWidth configFile entries "source" 5 80
      let target ← validatePromptColumnWidth configFile entries "target" 10 200
      let dns ← validatePromptColumnWidth configFile entries "dns" 10 200
      let service ← validatePromptColumnWidth configFile entries "service" 5 80
      return ⟨queue, source, target, dns, service, queue.2, source.2, target.2, dns.2, service.2⟩
  | _ => .error error

def PromptWidths.dump (widths : PromptWidths) : Yaml :=
  .map [(.str "queue", .scalar (.int widths.queue)), (.str "source", .scalar (.int widths.source)),
    (.str "target", .scalar (.int widths.target)), (.str "dns", .scalar (.int widths.dns)),
    (.str "service", .scalar (.int widths.service))]

private theorem validatePromptColumnWidth_ok {configFile : String} {entries : List (Scalar × Yaml)} {key : String}
    {minimum maximum width : Nat} (h : lookupKey entries key = some (.scalar (.int width)))
    (hrange : minimum ≤ width ∧ width ≤ maximum) :
    validatePromptColumnWidth configFile entries key minimum maximum = .ok ⟨width, hrange⟩ := by
  have hitem : getItem entries key = .ok (.scalar (.int (.ofNat width))) := by rw [getItem, h]; rfl
  rw [validatePromptColumnWidth, hitem]
  exact dif_pos hrange

/-- All widths within the ranges are accepted. -/
theorem validatePromptColumnWidths_dump (configFile : String) (widths : PromptWidths) :
    validatePromptColumnWidths configFile widths.dump = .ok widths := by
  simp only [validatePromptColumnWidths, PromptWidths.dump]
  rw [if_neg (by simp [promptColumnWidthKeys]), validatePromptColumnWidth_ok (by rfl) widths.queueRange,
    validatePromptColumnWidth_ok (by rfl) widths.sourceRange, validatePromptColumnWidth_ok (by rfl) widths.targetRange,
    validatePromptColumnWidth_ok (by rfl) widths.dnsRange, validatePromptColumnWidth_ok (by rfl) widths.serviceRange]
  rfl

/-- The values of `config.yml` that the prompt reads; a listed service is a protocol name and a port text. -/
structure PromptConfig where
  theme : Theme
  promptColumnWidths : PromptWidths
  encrypted : List (Text × Text)
  unencrypted : List (Text × Text)

/-! ### Requests -/

/-- A DNS question, or a flow with its protocol and port. -/
inductive PromptQuestion where
  | dns (qname qtype : Text)
  | flow (proto : Text) (dport : Option Int)
  deriving DecidableEq

/-- The keys of a request that the prompt reads; an `Option` is a key that may be missing or `None`. -/
structure PromptRequest where
  source : Text
  displaySource : Option Text
  sourceUnknown : Bool
  sourceLabel : Option Text
  dst : Text
  host : Option Text
  question : PromptQuestion
  remaining : Option Int
  resolvedDests : Option (List Text)
  deriving DecidableEq

/-! ### Colours -/

def columnGap : Text := text " "
def reset : Text := text "\x1b[0m"
def bold : Text := text "\x1b[1m"
def defaultForeground : Text := text "\x1b[39m"
def unknownSourceColor : Text := text "\x1b[1;91m"
def darkNetKindColor : Text := text "\x1b[96m"
def lightNetKindColor : Text := text "\x1b[34m"
def encryptedProtocolColor : Text := text "\x1b[92m"
def unencryptedProtocolColor : Text := text "\x1b[93m"
def unlistedProtocolColor : Text := text "\x1b[91m"

def qubesInternalDns : List (Text × Text) :=
  [(text "10.139.1.1", text "qubes.dns-1.internal"), (text "10.139.1.2", text "qubes.dns-2.internal")]

def darkLabelColors : List (Text × Text) :=
  [(text "red", text "\x1b[91m"), (text "orange", text "\x1b[93m"), (text "yellow", text "\x1b[93m"),
    (text "green", text "\x1b[92m"), (text "gray", text "\x1b[97m"), (text "blue", text "\x1b[94m"),
    (text "purple", text "\x1b[95m"), (text "black", text "\x1b[97m")]

def lightLabelColors : List (Text × Text) :=
  [(text "red", text "\x1b[31m"), (text "orange", text "\x1b[33m"), (text "yellow", text "\x1b[33m"),
    (text "green", text "\x1b[32m"), (text "gray", text "\x1b[90m"), (text "blue", text "\x1b[34m"),
    (text "purple", text "\x1b[35m"), (text "black", text "\x1b[30m")]

def Theme.labelColors : Theme → List (Text × Text)
  | .dark => darkLabelColors
  | .light => lightLabelColors

def labelColor (theme : Theme) (label : Text) : Except PromptError Text :=
  if label = text "unknown" then .ok defaultForeground
  else match theme.labelColors.lookup label with
    | some color => .ok color
    | none => .error (.systemExit (text "unknown Qubes label for source color: " ++ label))

def sourceLabel (request : PromptRequest) : Text := request.sourceLabel.getD (text "unknown")

def dnsKindColor : Theme → Text
  | .dark => darkNetKindColor
  | .light => lightNetKindColor

/-! ### Cells -/

variable (ucd : UnicodeData)

/-- `" " * n` -/
def blanks (n : Nat) : Text := List.replicate n blank

/-- `f"{value:<{width}}"` -/
def padded (value : Text) (width : Nat) : Text := value ++ blanks (width - value.length)

/-- `str(n)` -/
def intText (n : Int) : Text := (if n < 0 then '-' :: Py.decimal n.natAbs else Py.decimal n.natAbs).map codePoint

def coloredSource (request : PromptRequest) (theme : Theme) (widths : PromptWidths) : Except PromptError Text := do
  let source := padded (safeText ucd maxDisplayText (request.displaySource.getD request.source)) widths.source
  if request.sourceUnknown then return unknownSourceColor ++ source ++ reset
  else return (← labelColor theme (sourceLabel request)) ++ source ++ reset

/-- `request.get("host") or "no PTR"`, cleaned. -/
def hostText (request : PromptRequest) : Text :=
  safeText ucd maxDisplayText ((request.host.filter (· ≠ [])).getD (text "no PTR"))

def colorCell (value : Text) (width : Nat) (color : Text) : Text :=
  let value := safeText ucd maxDisplayText value
  color ++ value ++ reset ++ blanks (width - value.length)

/-- `request.get("dport") or "-"`; `none` stands for the dash. -/
def requestPortText : Option Int → Option Int := Option.filter (· ≠ 0)

def portLabel (port : Option Int) : Text := (port.map intText).getD (text "-")

def protocolColor (config : PromptConfig) (proto : Text) (port : Option Int) : Text :=
  if proto = text "icmp" then unlistedProtocolColor
  else if port = none then defaultForeground
  else if (proto, portLabel port) ∈ config.encrypted then encryptedProtocolColor
  else if (proto, portLabel port) ∈ config.unencrypted then unencryptedProtocolColor
  else unlistedProtocolColor

/-- `socket.getservbyport` reads `/etc/services`. -/
abbrev GetServByPort := Int → Text → Except PromptError Text

variable (getservbyport : GetServByPort)

def serviceName (proto : Text) (port : Option Int) : Except PromptError (Option Text) :=
  match port with
  | none => .error (.valueError (text "invalid literal for int() with base 10: '-'"))
  | some port =>
    match getservbyport port proto with
    | .ok name => .ok (some name)
    | .error (.osError _) => .ok none
    | .error error => .error error

def serviceLabel (proto : Text) (port : Option Int) : Except PromptError Text :=
  if proto = text "icmp" then .ok (text "icmp")
  else do
    let pair := portLabel port ++ text "/" ++ proto
    match (← serviceName getservbyport proto port).filter (· ≠ []) with
    | some name => return name ++ text " " ++ pair
    | none => return pair

def isDnsTransport (proto : Text) (dport : Option Int) : Bool := proto = text "udp" && dport = some 53

/-- The fixed name of a resolver of Qubes, else the name that was found for the address. -/
def dnsText (request : PromptRequest) : Text := (qubesInternalDns.lookup request.dst).getD (hostText ucd request)

def resolverDnsName (request : PromptRequest) : Text :=
  (qubesInternalDns.lookup request.dst).getD (hostText ucd request)

def dnsTrafficColor (config : PromptConfig) (request : PromptRequest) : Text :=
  if (qubesInternalDns.lookup request.dst).isSome then dnsKindColor config.theme else unlistedProtocolColor

def dnsColor (config : PromptConfig) (request : PromptRequest) : Text :=
  if (qubesInternalDns.lookup request.dst).isSome then dnsKindColor config.theme
  else match request.host.filter (· ≠ []) with
    | none => unlistedProtocolColor
    | some host =>
      if (text "A ").isPrefixOf host then encryptedProtocolColor
      else if (text "PTR ").isPrefixOf host then unencryptedProtocolColor
      else defaultForeground

/-- The texts and colours of the cells after the source. -/
structure PromptFields where
  target : Text
  dns : Text
  service : Text
  targetColor : Text
  dnsColor : Text
  serviceColor : Text

def promptFields (config : PromptConfig) (request : PromptRequest) : Except PromptError PromptFields :=
  match request.question with
  | .dns qname qtype =>
    let color := dnsTrafficColor config request
    .ok ⟨request.dst, qname, text "DNS " ++ qtype, color, color, color⟩
  | .flow proto dport =>
    if isDnsTransport proto dport then do
      let color := dnsTrafficColor config request
      return ⟨request.dst, resolverDnsName ucd request, ← serviceLabel getservbyport proto dport, color, color, color⟩
    else do
      let port := requestPortText dport
      return ⟨request.dst, dnsText ucd request, ← serviceLabel getservbyport proto port, defaultForeground,
        dnsColor config request, protocolColor config proto port⟩

/-! ### Rows -/

/-- Overlong target and DNS cells take padding from the service cell. -/
def serviceWidth (widths : PromptWidths) (target dns service : Text) : Nat :=
  max (widths.service - (target.length - widths.target) - (dns.length - widths.dns)) service.length

def actionPrompt (request : PromptRequest) : Text :=
  if (request.resolvedDests.getD []).isEmpty then text "[a/r] " else text "[a/r/A/R] "

def continuationPrefix (widths : PromptWidths) : Text :=
  padded [] widths.queue ++ columnGap ++ padded [] widths.source ++ columnGap

def actionPadding (widths : PromptWidths) (target dns service : Text) : Nat :=
  (widths.target - target.length) + columnGap.length + widths.dns + columnGap.length +
    serviceWidth widths target dns service + columnGap.length

/-- `value.rstrip()` -/
def rstrip (value : Text) : Text := (value.reverse.dropWhile isspace).reverse

/-- The row of a prompt without its keys. -/
def firstLine (config : PromptConfig) (request : PromptRequest) (fields : PromptFields) (source : Text) : Text :=
  let widths := config.promptColumnWidths
  padded (intText (request.remaining.getD 0 + 1)) widths.queue ++ columnGap ++
    source ++ columnGap ++
    colorCell ucd fields.target widths.target fields.targetColor ++ columnGap ++
    colorCell ucd fields.dns widths.dns fields.dnsColor ++ columnGap ++
    colorCell ucd fields.service (serviceWidth widths fields.target fields.dns fields.service) fields.serviceColor ++
    columnGap

/-- The rows of the further addresses; the last one has the keys. -/
def extraLines (widths : PromptWidths) (request : PromptRequest) (fields : PromptFields) (resolved : List Text) :
    List Text :=
  resolved.zipIdx.map fun (ip, index) =>
    let suffix := if index = resolved.length - 1 then actionPrompt request else []
    continuationPrefix widths ++ ip ++ blanks (actionPadding widths ip fields.dns fields.service) ++ suffix

def packetLine (request : PromptRequest) (config : PromptConfig) : Except PromptError Text := do
  let fields ← promptFields ucd getservbyport config request
  let source ← coloredSource ucd request config.theme config.promptColumnWidths
  let firstLine := firstLine ucd config request fields source
  let resolved := (request.resolvedDests.getD []).filter (· ≠ fields.target)
  if resolved.isEmpty then return firstLine ++ actionPrompt request
  else return rstrip firstLine ++ text "\n" ++
    (text "\n").intercalate (extraLines config.promptColumnWidths request fields resolved)

end QubesSnitch
