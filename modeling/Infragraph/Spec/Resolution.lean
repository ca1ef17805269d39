import Infragraph.Spec.Reconcile

/-! `Resolve` of `internal/resolution/resolution.go`: an observation is matched by the
first of its strong identities that is bound, else its hostname makes a candidate. -/

namespace Infragraph

open ReadCommitted

/-- The case folding of `strings.EqualFold`: one rune for every orbit of
`unicode.SimpleFold`. -/
class CaseFolding where
  fold : Char → Char

/-- `strings.EqualFold`. -/
def sameFold [CaseFolding] (a b : String) : Bool :=
  a.toList.map CaseFolding.fold = b.toList.map CaseFolding.fold

/-- `domain.Asset`, with what `Resolve` reads. -/
structure KnownAsset where
  id : String
  canonicalName : String
  environment : String

inductive Decision where
  | matched
  | newAsset
  | candidate
deriving DecidableEq

/-- `Result`. -/
structure Resolution where
  decision : Decision
  assetID : String
  confidence : String
  reasons : List String
deriving DecidableEq

/-- The loop over the strong keys: the first that is bound, and the asset. -/
def matchStrong (o : Observation) (identities : String → String) : Option (String × String) :=
  strongKeys.findSome? fun k =>
    let v := ((strongIdentities o).lookup k).getD ""
    if v = "" then none
    else if identities (k ++ ":" ++ v) = "" then none else some (k, identities (k ++ ":" ++ v))

/-- `Resolve`; a missing key of the identities gives the empty text. -/
def resolve [CaseFolding] (o : Observation) (assets : List KnownAsset) (identities : String → String) : Resolution :=
  match matchStrong o identities with
  | some (k, id) => ⟨.matched, id, "HIGH", ["matching immutable identifier: " ++ k]⟩
  | none =>
    match assets.find? fun a => sameFold a.canonicalName (hintText o.identityHints "hostname") with
    | some a =>
      let environment := hintText o.attributes "environment"
      if environment ≠ "" ∧ a.environment ≠ "" ∧ sameFold environment a.environment = false then
        ⟨.candidate, a.id, "LOW", ["hostname matches but environments differ"]⟩
      else ⟨.candidate, a.id, "LOW", ["hostname is a weak identifier"]⟩
    | none => ⟨.newAsset, "", "UNKNOWN", ["no known identity matched"]⟩

/-- The strong lookup loop of `ApplyPostgres` with the answers of PostgreSQL: the
lookup of a text with a NUL fails, and that ends the loop. -/
def lookupStrong (org : String) (identities : List (String × String)) : Tx String :=
  (resolveStrong org identities).refusing refuseNul

/-- The table of strong identities as the map `Resolve` takes: its keys are a strong
key and a value with a colon between them. -/
def Db.identities (db : Db) (org text : String) : String :=
  let key := String.ofList (text.toList.takeWhile (· ≠ ':'))
  let value := String.ofList ((text.toList.dropWhile (· ≠ ':')).drop 1)
  ((db.strongIdentities.get (org, key, value)).map (·.assetID)).getD ""

end Infragraph
