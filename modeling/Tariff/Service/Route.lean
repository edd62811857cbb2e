import Tariff.Path
import Tariff.Text.LetterCase
import Tariff.Text.Percent

/-!
# Routes

Which request asks for what. An address is taken without its query, names of the same or the upper
place are resolved, and percent signs are decoded, twice over. A slash at the end of an address is
left out if there is something to be found without it.
-/

namespace Tariff.Service

/-- What can be asked for. -/
inductive Endpoint where
  /-- Whether the service is there. -/
  | greeting
  /-- How the service is set up. -/
  | status
  /-- The stored formulas. -/
  | formulas
  /-- What can be counted in the catalog. -/
  | stats
  /-- Ids for labels. -/
  | identifiers
  /-- A stored formula. -/
  | formula (id : String)
  /-- The tokens of a stored formula. -/
  | tokens (id : String)
  /-- The report on a stored formula. -/
  | report (id : String)
  /-- The price of a stored formula. -/
  | price (id : String)
  /-- The price of a formula that is sent along. -/
  | inlinePrice
  /-- The report on a formula that is sent along. -/
  | inlineReport
  /-- The prices of several stored formulas. -/
  | quote
  deriving DecidableEq, Repr

/-- What can be asked for at an address, each with its method; what comes first goes first. -/
def endpointsAt : List String → List (String × Endpoint)
  | [""] => [("GET", .greeting)]
  | ["calculate"] => [("POST", .inlinePrice)]
  | ["validate"] => [("POST", .inlineReport)]
  | ["quote"] => [("POST", .quote)]
  | ["system", "status"] => [("GET", .status)]
  | ["api", "formulas"] => [("GET", .formulas)]
  | ["api", "formulas", id] =>
    (if id = "stats" then [("GET", .stats)] else [])
      ++ (if id = "identifiers" then [("POST", .identifiers)] else [])
      ++ if id.isEmpty then [] else [("GET", .formula id)]
  | ["api", "formulas", id, "tokens"] => if id.isEmpty then [] else [("GET", .tokens id)]
  | ["api", "formulas", id, "validate"] => if id.isEmpty then [] else [("GET", .report id)]
  | ["api", "formulas", id, "calculate"] => if id.isEmpty then [] else [("POST", .price id)]
  | _ => []

/-- The parts of an address between its slashes. -/
def partsOf (address : String) : List String :=
  (Text.Separator.split ⟨'/', []⟩ address.toList).map String.ofList

/-- One more part of an address after those before it, the latest of which comes first. -/
def resolvePart (before : List String) (part : String) : List String :=
  if part = "." then before
  else if part = ".." then (if before.length ≤ 1 then before else before.tail)
  else part :: before

/-- An address without its query, its names resolved and its percent signs decoded. -/
def plainAddress (address : String) : String :=
  let cs := address.toList.takeWhile fun c => c != '?' && c != '#'
  let parts := partsOf (String.ofList ('/' :: cs.dropWhile (· == '/')))
  let resolved := (parts.foldl resolvePart []).reverse
  Text.percentDecode (Text.percentDecode ("/".intercalate resolved))

/-- The parts of an address after its first slash. -/
def addressParts (address : String) : List String :=
  (partsOf address).drop 1

/-- An address without the slashes at its end. -/
def withoutEnd (address : String) : String :=
  String.ofList ((address.toList.reverse.dropWhile (· == '/')).reverse)

/-- What can be asked for at an address, or else at the address without the slashes at its end. -/
def endpointsNear (address : String) : List (String × Endpoint) :=
  let plain := plainAddress address
  match endpointsAt (addressParts plain) with
  | [] => endpointsAt (addressParts (withoutEnd plain))
  | endpoints => endpoints

/-- Why nothing is found at an address. -/
inductive RouteFault where
  /-- There is nothing at all. -/
  | notFound
  /-- There is nothing for the method. -/
  | methodNotAllowed
  deriving DecidableEq, Repr

/-- What a request asks for. -/
def route (method address : String) : Except RouteFault Endpoint :=
  let endpoints := endpointsNear address
  match endpoints.lookup (Text.toUpper method), endpoints with
  | some endpoint, _ => .ok endpoint
  | none, [] => .error .notFound
  | none, _ => .error .methodNotAllowed

end Tariff.Service
