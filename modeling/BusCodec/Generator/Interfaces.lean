import BusCodec.Generator.Basic
import BusCodec.Interface.Basic

/-!
Generating what interfaces need.  A member that cannot be generated is reported,
and the others are generated all the same.
-/

namespace BusCodec

/-- A member that could not be generated, and why. -/
structure MemberFailure where
  member : String
  error : Error
  deriving DecidableEq, Repr, Inhabited

/-- What came of an interface: the entry procedures, and the members that could
not be generated. -/
structure InterfaceReport where
  interface : String
  entryPoints : List String
  failures : List MemberFailure
  deriving DecidableEq, Repr, Inhabited

namespace InterfaceReport

def isComplete (report : InterfaceReport) : Bool :=
  report.failures.isEmpty

end InterfaceReport

namespace Generator

/-- Generates what the requests ask for, up to the first one that fails.  What
was generated before it stays. -/
def fulfil (generator : Generator) :
    List Request → (List String × Option Error) × Generator
  | [] => (([], none), generator)
  | request :: requests =>
      match entry request.access request.signature request.variant generator with
      | (.error error, reached) => (([], some error), reached)
      | (.ok name, reached) =>
          let ((names, failure), last) := reached.fulfil requests
          ((name :: names, failure), last)

def processMember (generator : Generator) (member : Member) :
    (List String × Option Error) × Generator :=
  match member.requests with
  | .error error => (([], some (.grammar error)), generator)
  | .ok requests => generator.fulfil requests

def processMembers (generator : Generator) :
    List Member → (List String × List MemberFailure) × Generator
  | [] => (([], []), generator)
  | member :: members =>
      let ((names, failure), reached) := generator.processMember member
      let ((moreNames, moreFailures), last) := reached.processMembers members
      let failures := failure.toList.map fun error => ⟨member.name, error⟩
      ((names ++ moreNames, failures ++ moreFailures), last)

def processInterface (generator : Generator) (interface : Interface) :
    InterfaceReport × Generator :=
  let ((names, failures), reached) := generator.processMembers interface.members
  (⟨interface.name, names, failures⟩, reached)

def processInterfaces (generator : Generator) :
    List Interface → List InterfaceReport × Generator
  | [] => ([], generator)
  | interface :: interfaces =>
      let (report, reached) := generator.processInterface interface
      let (reports, last) := reached.processInterfaces interfaces
      (report :: reports, last)

end Generator

end BusCodec
