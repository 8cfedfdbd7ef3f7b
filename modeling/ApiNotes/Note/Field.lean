import ApiNotes.Text.Basic

/-!
# Fields and references

What an annotation line says, by its keyword: the outcome of a request, a parameter, a route,
a security scheme, or a plain tag. A reference is a qualified type name, `package.Type`, at
its place in the line.
-/

namespace ApiNotes

/-- Which side of an operation a reference describes. -/
inductive Origin where
  | request
  | response
  deriving DecidableEq

def Origin.text : Origin → Text
  | .request => "request".toList
  | .response => "response".toList

/-- A qualified type name in the columns from `start` up to, not including, `stop` of a line.
`level` counts the brackets that are open before it. -/
structure Reference where
  line : Int
  start : Int
  stop : Int
  name : Text
  level : Nat
  origin : Origin
  deriving DecidableEq

inductive Outcome where
  | success
  | failure
  deriving DecidableEq

inductive TagName where
  | summary
  | description
  | tags
  | accept
  | produce
  deriving DecidableEq

/-- The keywords that an annotation may begin with. -/
inductive Keyword where
  | outcome (outcome : Outcome)
  | param
  | router
  | security
  | tag (name : TagName)
  deriving DecidableEq

namespace Keyword

/-- How a keyword is written after the `@`. -/
def text : Keyword → Text
  | .outcome .success => "Success".toList
  | .outcome .failure => "Failure".toList
  | .param => "Param".toList
  | .router => "Router".toList
  | .security => "Security".toList
  | .tag .summary => "Summary".toList
  | .tag .description => "Description".toList
  | .tag .tags => "Tags".toList
  | .tag .accept => "Accept".toList
  | .tag .produce => "Produce".toList

def all : List Keyword :=
  [.outcome .success, .outcome .failure, .param, .router, .security, .tag .summary,
    .tag .description, .tag .tags, .tag .accept, .tag .produce]

/-- The keyword that a word spells, with exactly its capitals. -/
def ofText? (word : Text) : Option Keyword := all.find? fun keyword => keyword.text = word

/-- The name of the kind of annotation that a keyword introduces. -/
def kindText : Keyword → Text
  | .outcome .success => "success".toList
  | .outcome .failure => "failure".toList
  | .param => "param".toList
  | .router => "router".toList
  | .security => "security".toList
  | .tag _ => "tag".toList

end Keyword

/-- What an annotation says. -/
inductive Detail where
  /-- A status code and what is in the braces after it. -/
  | response (outcome : Outcome) (status : Nat) (object : Text)
  /-- A parameter: its name, where it is passed, its type and whether it is required. -/
  | param (name location : Text) (type : Option Text) (required : Option Bool)
  /-- A path and the methods that it answers, in lower case. -/
  | router (path : Text) (methods : List Text)
  | security (scheme : Text)
  /-- Free text under one of the tag keywords. -/
  | tag (name : TagName)
  deriving DecidableEq

def Detail.keyword : Detail → Keyword
  | .response outcome .. => .outcome outcome
  | .param .. => .param
  | .router .. => .router
  | .security _ => .security
  | .tag name => .tag name

/-- One annotation line: what it says, its text without keyword and description, the quoted
description at its end, and the references in it. -/
structure Field where
  line : Int
  detail : Detail
  value : Text
  description : Option Text
  references : List Reference
  deriving DecidableEq

def Field.keyword (field : Field) : Keyword := field.detail.keyword

/-- A status code of `digits` digits, too many to be read as a number. -/
structure StatusTooLong where
  digits : Nat
  deriving DecidableEq

end ApiNotes
