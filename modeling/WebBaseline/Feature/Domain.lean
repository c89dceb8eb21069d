/-!
# Domains of features

A feature's identifier starts with the part of the web platform that it
belongs to.
-/

namespace WebBaseline

/-- The part of the web platform that a feature belongs to. -/
inductive Domain where
  | css
  | html
  | api
  | js
  | other
deriving DecidableEq, Repr, Inhabited

namespace Domain

/-- All domains. -/
def all : List Domain := [css, html, api, js, other]

/-- The place of a domain among all. -/
def number : Domain → Fin 5
  | css => 0
  | html => 1
  | api => 2
  | js => 3
  | other => 4

/-- The name of a domain. -/
def name : Domain → String
  | css => "css"
  | html => "html"
  | api => "api"
  | js => "js"
  | other => "other"

/-- The domain of an identifier. -/
def ofIdentifier (identifier : String) : Domain :=
  if identifier.startsWith "css-" then css
  else if identifier.startsWith "html-" then html
  else if identifier.startsWith "api-" then api
  else if identifier.startsWith "js-" then js
  else other

/-- Whether scripts can use features of the domain by name. -/
def isScript : Domain → Bool
  | api | js => true
  | css | html | other => false

theorem mem_all (d : Domain) : d ∈ all := by
  cases d <;> decide

end Domain

end WebBaseline
