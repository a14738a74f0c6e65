import Interchange.Failure

/-! # Path templates

A template such as `/api/{service}/{method}` tells where a path names a service and a method. Both
placeholders appear exactly once, every other segment is a literal without braces, and slashes in a
row count as one.
-/

namespace Interchange

/-- One segment of a template. -/
inductive Segment where
  | literal (text : String)
  | service
  | method
deriving DecidableEq, Repr

/-- A template together with its text. -/
structure PathTemplate where
  text : String
  segments : List Segment
deriving DecidableEq, Repr

namespace PathTemplate

/-- The pieces between the separators, empty ones included. -/
def splitAt (separator : Char) : List Char → List (List Char)
  | [] => [[]]
  | c :: cs =>
    if c = separator then [] :: splitAt separator cs
    else
      match splitAt separator cs with
      | [] => [[c]]
      | piece :: pieces => (c :: piece) :: pieces

/-- The parts of a path that are not empty. -/
def parts (path : List Char) : List String :=
  ((splitAt '/' path).filter (!·.isEmpty)).map String.ofList

/-- What a part of a template stands for. -/
def segment (part : String) : Segment :=
  if part = "\x7bservice\x7d" then .service
  else if part = "\x7bmethod\x7d" then .method
  else .literal part

/-- Holds of a literal with a brace in it, which looks like a placeholder. -/
def hasBrace : Segment → Bool
  | .literal text => text.toList.any fun c ↦ c = '\x7b' || c = '\x7d'
  | _ => false

/-- The template that a text spells. -/
def parse (text : String) : Except Failure PathTemplate :=
  let segments := (parts text.toList).map segment
  let refuse (why : String) : Except Failure PathTemplate :=
    .error { code := .badRequest, message := s!"path template {Text.quoted text} {why}" }
  if segments.count .service ≠ 1 ∨ segments.count .method ≠ 1 then
    refuse "must contain \x7bservice\x7d and \x7bmethod\x7d once each"
  else if segments.any hasBrace then refuse "has an unknown placeholder"
  else .ok ⟨text, segments⟩

/-- The template for paths of the form `/api/{service}/{method}`. -/
def standard : PathTemplate :=
  ⟨"/api/\x7bservice\x7d/\x7bmethod\x7d", [.literal "api", .service, .method]⟩

/-- What stands at the two placeholders of a path that fits the segments. -/
def capture : List Segment → List String → Option (Option String × Option String)
  | [], [] => some (none, none)
  | .literal text :: segments, part :: parts => if text = part then capture segments parts else none
  | .service :: segments, part :: parts => (capture segments parts).map fun x ↦ (some part, x.2)
  | .method :: segments, part :: parts => (capture segments parts).map fun x ↦ (x.1, some part)
  | [], _ :: _ | _ :: _, [] => none

/-- The path without its query and fragment. -/
def withoutQuery (path : List Char) : List Char := path.takeWhile fun c ↦ c ≠ '?' && c ≠ '#'

/-- The service and the method that a path names. -/
def extract (t : PathTemplate) (path : String) : Option (String × String) :=
  match capture t.segments (parts (withoutQuery path.toList)) with
  | some (some service, some method) => some (service, method)
  | _ => none

/-- A segment as a listing of the template shows it. -/
def describeSegment : Segment → String
  | .literal text => s!"Literal({Text.quoted text})"
  | .service => "Service"
  | .method => "Method"

/-- The template as a record of its parts. -/
def describe (t : PathTemplate) : String :=
  Text.recordText "PathTemplate"
    [("raw", Text.quoted t.text), ("segments", Text.bracketed (t.segments.map describeSegment))]

@[simp] theorem parts_nil : parts [] = [] := rfl

end PathTemplate

end Interchange
