import TestBench.Web.Domain
import TestBench.Web.Ipv4
import TestBench.Web.Ipv6

/-!
# Hosts

The host of a web address is a domain name or the number of a machine. What is written may hold
bytes as percent signs with two digits. Schemes that no rule of the web is about have hosts that
are taken as they are, but for a few characters.

* `decodePercent_of_plain`: without percent signs, the bytes are those of the text.
-/

namespace TestBench.Web

/-- Why a text is no web address. -/
inductive Fault where
  | emptyHost
  | invalidDomain
  | invalidPort
  | invalidIpv4
  | invalidIpv6
  | forbiddenInHost
  | relative
deriving Repr, DecidableEq

/-- The wording of a fault. -/
def Fault.message : Fault → String
  | .emptyHost => "empty host"
  | .invalidDomain => "invalid international domain name"
  | .invalidPort => "invalid port number"
  | .invalidIpv4 => "invalid IPv4 address"
  | .invalidIpv6 => "invalid IPv6 address"
  | .forbiddenInHost => "invalid domain character"
  | .relative => "relative URL without a base"

/-- The bytes of a text in which two hexadecimal digits after a percent sign are a byte. -/
def decodePercent : List Char → List UInt8
  | '%' :: a :: b :: cs =>
    match Text.digit? 16 a, Text.digit? 16 b with
    | some x, some y => UInt8.ofNat (16 * x + y) :: decodePercent cs
    | _, _ => 0x25 :: decodePercent (a :: b :: cs)
  | c :: cs => String.utf8EncodeChar c ++ decodePercent cs
  | [] => []

/-- A host. -/
inductive Host where
  | domain (name : List Char)
  | ipv4 (address : Nat)
  | ipv6 (groups : List Nat)
deriving Repr, DecidableEq

namespace Host

/-- A host as it is shown. -/
def text : Host → String
  | .domain name => String.ofList name
  | .ipv4 address => Ipv4.display address
  | .ipv6 groups => "[" ++ Ipv6.display groups ++ "]"

/-- The host between square brackets, the first of which is not given. -/
def bracketed (cs : List Char) : Except Fault Host :=
  if cs.getLast? ≠ some ']' then .error .invalidIpv6
  else
    match Ipv6.parse? cs.dropLast with
    | some groups => .ok (.ipv6 groups)
    | none => .error .invalidIpv6

/-- The host with a name in ASCII. -/
def named (name : List Char) : Except Fault Host :=
  if name.isEmpty then .error .emptyHost
  else if Ipv4.endsInNumber name then
    match Ipv4.parse? name with
    | some address => .ok (.ipv4 address)
    | none => .error .invalidIpv4
  else .ok (.domain name)

/-- The host that a text is, in an address of the web. -/
def parse (cs : List Char) : Except Fault Host :=
  match cs with
  | '[' :: cs => bracketed cs
  | cs =>
    match Utf8.decode (decodePercent cs) with
    | .error _ => .error .invalidDomain
    | .ok name =>
      match Domain.toAscii name.toList with
      | some name => named name
      | none => .error .invalidDomain

/-- Whether a character may not stand in a host of any other address. -/
def isForbidden (c : Char) : Bool :=
  c == Char.ofNat 0 ||
    ['\t', '\n', '\r', ' ', '#', '/', ':', '<', '>', '?', '@', '[', '\\', ']', '^', '|'].contains c

/-- The host that a text is, in any other address. -/
def parseAny (cs : List Char) : Except Fault Host :=
  match cs with
  | '[' :: cs => bracketed cs
  | cs => if cs.any isForbidden then .error .forbiddenInHost else .ok (.domain cs)

end Host

/-- Without percent signs, the bytes are those of the text. -/
theorem decodePercent_of_plain {cs : List Char} (h : '%' ∉ cs) :
    decodePercent cs = cs.flatMap String.utf8EncodeChar := by
  fun_induction decodePercent cs with
  | case1 => simp at h
  | case2 => simp at h
  | case3 c cs _ ih =>
    rw [ih fun hm => h (List.mem_cons_of_mem _ hm), List.flatMap_cons]
  | case4 => rfl

end TestBench.Web
