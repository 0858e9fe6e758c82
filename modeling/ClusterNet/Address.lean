import ClusterNet.Ip.Numeric
import ClusterNet.Ip.Writer
import ClusterNet.Text.Blank
import ClusterNet.Text.Number

/-!
# Addresses of nodes

An address is a host and a port. The host is an IP literal or a name, and it is resolved
only on request. A host with a colon in it is written in brackets.
-/

namespace ClusterNet

structure Address where
  host : String
  port : UInt16
  deriving DecidableEq, Repr, Inhabited

namespace Address

/-- The port of an address that names none. -/
def defaultPort : UInt16 := 5679

/-- Drops one pair of brackets around a host. -/
def unbracket (cs : List Char) : List Char :=
  match cs with
  | '[' :: rest => if rest.getLast? = some ']' then rest.dropLast else cs
  | _ => cs

/-- The address of a host and a port. -/
def ofHost (host : String) (port : UInt16) : Address :=
  ⟨String.ofList (unbracket host.toList), port⟩

def ofIp (ip : Ip) (port : UInt16) : Address := ⟨ip.text, port⟩

/-- All interfaces of the local host. -/
def any (port : UInt16) : Address := ofHost "0.0.0.0" port

/-! ## Writing -/

def chars (a : Address) : List Char :=
  let port := Text.decimal a.port.toNat
  if a.host.toList.contains ':' then '[' :: a.host.toList ++ ']' :: ':' :: port
  else a.host.toList ++ ':' :: port

/-- The display form. -/
def text (a : Address) : String := String.ofList a.chars

/-! ## Reading -/

inductive Reason where
  | empty
  | unterminated
  | expectedColon
  | invalidPort
  | invalidIpv6
  | emptyHost
  deriving DecidableEq, Repr

def Reason.message : Reason → String
  | .empty => "empty address"
  | .unterminated => "unterminated '['"
  | .expectedColon => "expected ':' after ']'"
  | .invalidPort => "invalid port"
  | .invalidIpv6 => "invalid IPv6 literal"
  | .emptyHost => "empty host"

/-- Splits at the first `c`, which belongs to neither part. -/
def splitAt? (c : Char) : List Char → Option (List Char × List Char)
  | [] => none
  | x :: rest =>
    if x = c then some ([], rest) else (splitAt? c rest).map fun (a, b) => (x :: a, b)

/-- A host in brackets, after the opening one. The port may be left out. -/
def ofBracketed (cs : List Char) : Except Reason Address :=
  match splitAt? ']' cs with
  | none => .error .unterminated
  | some (host, []) => .ok (ofHost (String.ofList host) defaultPort)
  | some (host, ':' :: port) =>
    match Text.uint16? port with
    | some p => .ok (ofHost (String.ofList host) p)
    | none => .error .invalidPort
  | some _ => .error .expectedColon

/-- An address without blanks around it. More than one colon makes a bare IPv6 literal. -/
def ofTrimmed (cs : List Char) : Except Reason Address :=
  match cs with
  | [] => .error .empty
  | '[' :: rest => ofBracketed rest
  | _ =>
    if 1 < cs.count ':' then
      match Ip.ofChars? cs with
      | some ip => .ok (ofIp ip defaultPort)
      | none => .error .invalidIpv6
    else
      match splitAt? ':' cs with
      | none => .ok (ofHost (String.ofList cs) defaultPort)
      | some ([], _) => .error .emptyHost
      | some (host, port) =>
        match Text.uint16? port with
        | some p => .ok (ofHost (String.ofList host) p)
        | none => .error .invalidPort

/-- Reads an address, with or without a port. -/
def parse (s : String) : Except Reason Address := ofTrimmed (Text.trimChars s.toList)

/-- What is said of a text that is no address. The text is shown as it was given. -/
def Reason.describe (input : String) (r : Reason) : String :=
  s!"invalid address '{input}': {r.message}"

/-! ## IP form -/

/-- The host as an IP address, if it is a literal. -/
def ip? (a : Address) : Option Ip := Ip.ofText? a.host

/-- The IP address of the host. A name that is no literal may be a numeric host; other names
have no address, and neither has a host with a NUL in it. -/
def resolve? (a : Address) : Option Ip :=
  match a.ip? with
  | some ip => some ip
  | none => if a.host.toList.contains '\x00' then none else (Ip.ofNumeric? a.host).map .v4

/-- The address with its host replaced by the IP it resolves to. -/
def resolved? (a : Address) : Option Address := a.resolve?.map (ofIp · a.port)

/-- The text of a socket address: an IPv6 host is in brackets. -/
def socketText? (a : Address) : Option String :=
  a.ip?.map fun ip =>
    match ip with
    | .v4 q => String.ofList (q.chars ++ ':' :: Text.decimal a.port.toNat)
    | .v6 g => String.ofList ('[' :: g.chars ++ ']' :: ':' :: Text.decimal a.port.toNat)

/-! ## Sockets -/

/-- A port after a colon, at the end of a text. -/
def socketPort? : List Char → Option UInt16
  | ':' :: digits => (Text.digitsValue? digits).bind fun n =>
    if n ≤ 65535 then some n.toUInt16 else none
  | _ => none

/-- Drops a zone: a percent sign and a number below 2^32. -/
def withoutZone? : List Char → Option (List Char)
  | '%' :: cs =>
    match Text.spanDigits Text.digitValue? cs with
    | ([], _) => none
    | (ds, rest) => if Text.valueOf 10 ds < UInt32.size then some rest else none
  | cs => some cs

/-- The address of a socket. The zone of an IPv6 socket is lost. -/
def ofSocketText? (s : String) : Option Address :=
  match s.toList with
  | '[' :: cs => do
    let (ip, rest) ← Ip.ipv6 cs
    match ← withoutZone? rest with
    | ']' :: rest => (socketPort? rest).map (ofIp (.v6 ip))
    | _ => none
  | cs => do
    let (ip, rest) ← Ip.ipv4 cs
    (socketPort? rest).map (ofIp (.v4 ip))

/-- Hosts are compared first, by their characters, then ports. -/
def compare (a b : Address) : Ordering :=
  (Ord.compare a.host b.host).then (Ord.compare a.port b.port)

end Address

end ClusterNet
