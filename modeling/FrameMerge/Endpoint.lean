import FrameMerge.Text.Blank
import FrameMerge.Text.Natural

/-!
# Endpoints

Where a peer is found: a host and a port, written `tcp://host:port`. A host with a colon in it is written in
brackets, so that the last colon outside of them always precedes the port.
-/

namespace FrameMerge

structure Endpoint where
  host : String
  port : UInt16
  deriving DecidableEq

/-- Why a text is no endpoint. The address is the text without outer blanks and scheme. -/
inductive EndpointError
  | unsupportedScheme (scheme : String)
  | unclosedBracket (address : String)
  | missingPort (address : String)
  | invalidPort (address : String) (cause : Text.NaturalError)
  | missingHost (text : String)
  deriving DecidableEq

namespace EndpointError

/-- The offence by itself. -/
def message : EndpointError → String
  | unsupportedScheme scheme => "unsupported endpoint scheme: " ++ scheme
  | unclosedBracket address => "invalid endpoint address: " ++ address
  | missingPort address => "missing port in " ++ address
  | invalidPort address _ => "invalid port in " ++ address
  | missingHost text => "missing host in endpoint " ++ text

/-- The offence with its cause, where there is one. -/
def messageWithCause (e : EndpointError) : String :=
  match e with
  | invalidPort _ cause => e.message ++ ": " ++ cause.message
  | _ => e.message

end EndpointError

namespace Endpoint

/-- The address to bind to or to connect to. -/
def address (e : Endpoint) : String :=
  if e.host.toList.contains ':' then "[" ++ e.host ++ "]:" ++ toString e.port.toNat
  else e.host ++ ":" ++ toString e.port.toNat

/-- The endpoint as text. -/
def text (e : Endpoint) : String := "tcp://" ++ e.address

/-- The address behind a scheme. Without a scheme, all of the text. -/
def stripScheme (s : List Char) : Except EndpointError (List Char) :=
  match Text.cut? [':', '/', '/'] s with
  | none => .ok s
  | some (scheme, rest) =>
    if scheme = ['t', 'c', 'p'] then .ok rest else .error (.unsupportedScheme (String.ofList scheme))

/-- Reads the port of an address. -/
def readPort (address port : List Char) : Except EndpointError UInt16 :=
  match Text.readNatural Text.bound16 port with
  | .error cause => .error (.invalidPort (String.ofList address) cause)
  | .ok n => .ok n.toUInt16

/-- Splits an address into host and port: after a bracket at its closing bracket, otherwise at the last colon. -/
def splitAddress (address : List Char) : Except EndpointError (List Char × UInt16) :=
  match address with
  | '[' :: inner =>
    match Text.cut? [']'] inner with
    | none => .error (.unclosedBracket (String.ofList address))
    | some (host, ':' :: port) => (readPort address port).map fun port => (host, port)
    | some _ => .error (.missingPort (String.ofList address))
  | _ =>
    match Text.cutLast? ':' address with
    | none => .error (.missingPort (String.ofList address))
    | some (host, port) => (readPort address port).map fun port => (host, port)

/-- Reads an endpoint. A star stands for every address of the machine. -/
def parse (text : String) : Except EndpointError Endpoint :=
  (stripScheme (Text.trim text.toList)).bind fun address =>
    (splitAddress address).bind fun (host, port) =>
      if host.isEmpty then .error (.missingHost text)
      else if host = ['*'] then .ok ⟨"0.0.0.0", port⟩
      else .ok ⟨String.ofList host, port⟩

end Endpoint

end FrameMerge
