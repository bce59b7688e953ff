import PlcGateway.Settings.Validation
import PlcGateway.Text.Cut

/-!
# Sessions on the bus

What a gateway asks of the bus when it opens a session: its mode, and the endpoints that it connects
to and listens on, where there are any.

An endpoint is written `protocol/address`, and may go on with metadata after a `?` and then with
options after a `#`. Both are lists of parameters `name=value` with `;` between them. The bus knows
an endpoint by one spelling, which `Endpoint.text` gives: parameters without a name are left out,
the others stand in the order of their names, and a parameter without a value is only its name.
-/

namespace PlcGateway.Bus

/-! ## Endpoints -/

/-- A parameter of an endpoint. -/
structure Parameter where
  name : String
  value : String
  deriving DecidableEq, Repr

namespace Parameter

/-- The parameter that a text stands for; without an equals sign it has no value. -/
def ofText (s : List Char) : Parameter :=
  match Text.cut? ['='] s with
  | some (name, value) => ⟨String.ofList name, String.ofList value⟩
  | none => ⟨String.ofList s, ""⟩

/-- The text of a parameter. -/
def text (p : Parameter) : String := if p.value.isEmpty then p.name else p.name ++ "=" ++ p.value

/-- The parameters of a list that have a name, in the order of their names. -/
def list (s : List Char) : List Parameter :=
  let named := ((Text.fields ';' s).map ofText).filter fun p => !p.name.isEmpty
  named.mergeSort fun p q => p.name ≤ q.name

end Parameter

/-- An endpoint of the bus. -/
structure Endpoint where
  /-- The protocol and the address. -/
  base : String
  /-- What follows the `?`, if there is one. -/
  metadata : Option (List Parameter)
  /-- What follows the `#`, if there is one. -/
  options : Option (List Parameter)
  deriving DecidableEq, Repr

/-- The part of a text before the first `stop`, and the part after it if there is one. -/
def upTo (stop : Char) (s : List Char) : List Char × Option (List Char) :=
  match Text.cut? [stop] s with
  | some (before, rest) => (before, some rest)
  | none => (s, none)

namespace Endpoint

/-- Whether a character is a line separator that ends a quoted text. The endpoints of a session are
handed over in quotes, where no other character needs to be left out. -/
def breaksQuote (c : Char) : Bool := c == '\u2028' || c == '\u2029'

/-- Whether a list of parameters, where there is one, has a parameter. -/
def given (parameters : Option (List Parameter)) : Bool := parameters.all fun ps => !ps.isEmpty

/-- The endpoint that a text is. The protocol is not empty, and something follows the slash after
it. A `?` or a `#` is followed by a parameter, and a `?` after the `#` is a part of the options only
if there is metadata too. -/
def ofText? (text : String) : Option Endpoint := do
  let (head, options) := upTo '#' text.toList
  let (base, metadata) := upTo '?' head
  let (protocol, address) ← Text.cut? ['/'] base
  let endpoint : Endpoint :=
    ⟨String.ofList base, metadata.map Parameter.list, options.map Parameter.list⟩
  let bare := metadata.isNone && options.isNone
  let late := metadata.isNone && options.any fun options => options.contains '?'
  if protocol.isEmpty || (address.isEmpty && bare) || late || text.toList.any breaksQuote
      || !given endpoint.metadata || !given endpoint.options then none
  else some endpoint

/-- The text of parameters after the character that begins them. -/
def tail (mark : String) : Option (List Parameter) → String
  | none => ""
  | some parameters => mark ++ ";".intercalate (parameters.map Parameter.text)

/-- The one spelling of an endpoint. -/
def text (endpoint : Endpoint) : String :=
  endpoint.base ++ Endpoint.tail "?" endpoint.metadata
    ++ Endpoint.tail "#" endpoint.options

end Endpoint

/-! ## Sessions -/

/-- What a session is opened with. -/
structure SessionRequest where
  mode : String
  connect : List Endpoint
  listen : List Endpoint
  deriving DecidableEq, Repr

/-- Why no session can be asked for. -/
inductive SessionError where
  | invalid (rule : BrokenRule)
  | endpoint (text : String)
  deriving DecidableEq, Repr

/-- The endpoints that texts are, or the first text that is none. -/
def endpoints (texts : List String) : Except SessionError (List Endpoint) :=
  texts.mapM fun text =>
    match Endpoint.ofText? text with
    | some endpoint => .ok endpoint
    | none => .error (.endpoint text)

/-- What a session is opened with under some settings. -/
def SessionRequest.ofSettings (bus : BusSettings) : Except SessionError SessionRequest :=
  match bus.validate with
  | .error rule => .error (.invalid rule)
  | .ok () => do
    let connect ← endpoints bus.connect
    let listen ← endpoints bus.listen
    .ok ⟨bus.mode, connect, listen⟩

end PlcGateway.Bus
