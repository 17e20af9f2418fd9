import TestBench.Failure
import TestBench.Web.Address

/-!
# Addresses of repositories

A repository is named by the address of its page, or by the short form that is used for secure
shells. Either way it lies in an organisation on the one host that is supported.

* `check_eq_ok_iff`: an address is accepted where there is nothing to complain about.
-/

namespace TestBench.Repository

/-- The host that repositories lie on. -/
def supportedHost : String := "github.com"

/-- Why a text is refused as the address of a repository. -/
inductive Complaint where
  | empty
  | badShortForm
  | unreadable (fault : Web.Fault)
  | otherScheme (scheme : String)
  | otherHost (host : Option String)
  | noRepository
deriving Repr, DecidableEq

/-- The wording of a complaint. -/
def Complaint.message : Complaint → String
  | .empty => "URL cannot be empty"
  | .badShortForm => "SSH URLs must look like git@github.com:<org>/<repo>"
  | .unreadable fault => s!"Invalid URL format: {fault.message}"
  | .otherScheme scheme => s!"Unsupported URL scheme: {scheme}"
  | .otherHost none => "Unsupported host: <none>"
  | .otherHost (some host) => s!"Unsupported host: {host}"
  | .noRepository => "URL must name an organisation and a repository"

/-- What the short form starts with, without and with the host. -/
def shortMark : List Char := "git@".toList
def shortStart : List Char := "git@github.com:".toList

/-- Whether a character may stand in a name in the short form. -/
def isNameChar (c : Char) : Bool :=
  c.isAlphanum || c == '_' || c == '.' || c == '-'

/-- Whether a text is a name in the short form. -/
def isName (cs : List Char) : Bool :=
  !cs.isEmpty && cs.all isNameChar

/-- Whether a text is the short form of an address: an organisation and a repository. -/
def isShortForm (cs : List Char) : Bool :=
  shortStart.isPrefixOf cs &&
    match Text.pieces '/' (cs.drop shortStart.length) with
    | [organisation, repository] => isName organisation && isName repository
    | _ => false

/-- What there is to complain about the address of a page. -/
def complainOfPage (address : Web.Address) : Option Complaint :=
  if address.scheme ≠ "https" then some (.otherScheme address.scheme)
  else if address.host.map Web.Host.text ≠ some supportedHost then
    some (.otherHost (address.host.map Web.Host.text))
  else if ((address.segments.getD []).filter (!·.isEmpty)).length < 2 then some .noRepository
  else none

/-- What there is to complain about a text that should be the address of a repository. -/
def complain (text : String) : Option Complaint :=
  let cs := text.toList
  if cs.all Text.isBlank then some .empty
  else if shortMark.isPrefixOf cs then
    if isShortForm cs then none else some .badShortForm
  else
    match Web.Address.parse cs with
    | .error fault => some (.unreadable fault)
    | .ok address => complainOfPage address

/-- The value of a field that has to be the address of a repository. -/
def check (field value : String) : Except Failure Unit :=
  match complain value with
  | some complaint => .error (.invalidValue field value complaint.message)
  | none => .ok ()

/-- An address is accepted where there is nothing to complain about. -/
theorem check_eq_ok_iff {field value : String} :
    check field value = .ok () ↔ complain value = none := by
  unfold check
  split <;> simp_all

end TestBench.Repository
