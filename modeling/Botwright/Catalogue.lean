import Botwright.Template.Basic
/-!
# Catalogues

The answer types, locales and clouds that a specification may name, each with its default.
-/
namespace Botwright

/-- Connection details of a cloud. -/
structure Cloud where
  name : String
  endpoint : String
deriving DecidableEq, Inhabited

def Cloud.toJson (c : Cloud) : Json :=
  .object [("cloudName", .string c.name), ("apiEndpoint", .string c.endpoint)]

namespace Catalogue

def lookup {α : Type} (tag : String) (table : List (String × α)) : Option α :=
  (table.find? (·.1 == tag)).map (·.2)

def entities : List (String × EntityKind) :=
  [("boolean", .boolean), ("number", .number), ("date", .dateTime), ("email", .email),
    ("phone", .phoneNumber), ("string", .string), ("choice", .closedList)]

def locales : List (String × UInt32) :=
  [("en-US", 1033), ("en-GB", 2057), ("es-ES", 3082), ("fr-FR", 1036), ("de-DE", 1031),
    ("ja-JP", 1041), ("zh-CN", 2052)]

def commercial : Cloud := ⟨"Public", "https://api.powerplatform.com"⟩

def clouds : List (String × Cloud) :=
  [("commercial", commercial), ("gcc", ⟨"USGov", "https://api.gov.powerplatform.microsoft.us"⟩),
    ("gcch", ⟨"USGovHigh", "https://api.high.powerplatform.microsoft.us"⟩),
    ("dod", ⟨"USGovDoD", "https://api.appsplatform.us"⟩)]

def entity? (tag : String) : Option EntityKind := lookup tag entities

def locale? (tag : String) : Option UInt32 := lookup tag locales

def cloud? (tag : String) : Option Cloud := lookup tag clouds

def defaultEntity : EntityKind := .string

def defaultLocale : UInt32 := 1033

/-- The answer type of a tag; an unknown tag takes any text. -/
def entityOf (tag : String) : EntityKind := (entity? tag).getD defaultEntity

def localeOf (tag : String) : UInt32 := (locale? tag).getD defaultLocale

def cloudOf (tag : String) : Cloud := (cloud? tag).getD commercial

end Catalogue
end Botwright
