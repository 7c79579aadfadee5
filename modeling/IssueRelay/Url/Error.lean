/-!
# Refused URLs

Why a text is no URL, or a reference cannot be resolved.
-/

namespace IssueRelay

/-- Why a text is no URL. -/
inductive UrlError
  | emptyHost
  | invalidPort
  | invalidIpv4
  | invalidIpv6
  | invalidDomain
  | invalidHostCharacter
  | relativeWithoutBase
  | relativeToFlatPath
  deriving DecidableEq, Repr

/-- The wording of a refusal. -/
def UrlError.message : UrlError → String
  | .emptyHost => "empty host"
  | .invalidPort => "invalid port number"
  | .invalidIpv4 => "invalid IPv4 address"
  | .invalidIpv6 => "invalid IPv6 address"
  | .invalidDomain => "invalid international domain name"
  | .invalidHostCharacter => "invalid domain character"
  | .relativeWithoutBase => "relative URL without a base"
  | .relativeToFlatPath => "relative URL with a cannot-be-a-base base"

end IssueRelay
