import IssueRelay.Text.Blank

/-!
# Tokens

A token for the server may come from several places, and may have blanks around it there.
-/

namespace IssueRelay

/-- The first of the places that has more than blanks: the environment, then the user's
credentials. -/
def pickToken? (environment credentials : Option String) : Option String :=
  ([environment, credentials].filterMap fun place => place.map trimBlank).find? (· ≠ "")

end IssueRelay
