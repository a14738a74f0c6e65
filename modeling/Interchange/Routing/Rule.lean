import Interchange.Message.Request
import Interchange.Text.Quoted

/-! # Routing rules -/

namespace Interchange

/-- A rule sends the calls that it matches to a service of its choice. -/
structure Rule where
  name : String
  /-- Rules of higher priority come first. -/
  priority : Int
  applies : Call → Bool
  target : Call → String

namespace Rule

/-- Calls with a certain value in a header go to a service. -/
def headerEquals (name : String) (priority : Int) (header value service : String) : Rule where
  name := name
  priority := priority
  applies c := c.header? header = some value
  target _ := service

/-- Calls to methods whose names begin in a certain way go to a service. -/
def methodStarts (name : String) (priority : Int) (start service : String) : Rule where
  name := name
  priority := priority
  applies c := start.toList.isPrefixOf c.method.toList
  target _ := service

/-- All calls go to a service. -/
def always (name : String) (priority : Int) (service : String) : Rule where
  name := name
  priority := priority
  applies _ := true
  target _ := service

/-- No call is redirected. -/
def never (name : String) (priority : Int) : Rule where
  name := name
  priority := priority
  applies _ := false
  target c := c.service

/-- Calls with a header go to the version of their service that the header names. -/
def versioned (name : String) (priority : Int) (header : String) : Rule where
  name := name
  priority := priority
  applies c := (c.header? header).isSome
  target c := c.service ++ "-" ++ (c.header? header).getD ""

/-- The rule as a record of what can be shown of it. -/
def describe (r : Rule) : String :=
  Text.partialRecordText "RoutingRule"
    [("name", Text.quoted r.name), ("priority", toString r.priority)]

end Rule

end Interchange
