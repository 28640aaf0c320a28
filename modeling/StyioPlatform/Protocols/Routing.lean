import Mathlib.Data.String.Basic
import StyioPlatform.Lib.KeyedList
import StyioPlatform.Lib.Paths

/-! The routes of the HTTP service (`Http.cpp`). -/
namespace StyioPlatform.Routing

inductive HttpMethod where
  | get
  | post
  | delete
  deriving DecidableEq, Repr

structure RouteSpec where
  operationId : String
  method : HttpMethod
  path : String
  deriving DecidableEq, Repr

structure RouteMatch where
  route : RouteSpec
  parameters : List (String × String)
  deriving DecidableEq, Repr

/-- The segments between the slashes that are not empty. -/
def splitRoute (route : String) : List String :=
  (segments '/' route.toList).map String.ofList

def isParameter (segment : String) : Bool :=
  decide (2 < segment.toList.length) && segment.toList.head? = some '{' &&
    segment.toList.getLast? = some '}'

def parameterName (segment : String) : String := String.ofList segment.toList.tail.dropLast

/-- The parameters of a path whose other segments are those of the route. -/
def matchSegments : List String → List String → List (String × String) →
    Option (List (String × String))
  | [], [], parameters => some parameters
  | spec :: specs, actual :: actuals, parameters =>
    if isParameter spec then
      matchSegments specs actuals (setKey parameters (parameterName spec) actual)
    else if spec = actual then matchSegments specs actuals parameters
    else none
  | _, _, _ => none

/-- `MatchRoute`: the first route that fits. -/
def matchRoute (routes : List RouteSpec) (method : HttpMethod) (path : String) :
    Option RouteMatch :=
  routes.findSome? fun route =>
    if route.method = method then
      (matchSegments (splitRoute route.path) (splitRoute path) []).map fun parameters =>
        { route, parameters }
    else none

/-- A segment of a path. -/
def IsSegment (s : String) : Prop := s ≠ "" ∧ '/' ∉ s.toList

variable {routes : List RouteSpec} {method : HttpMethod} {path name value : String} {m : RouteMatch}

theorem isSegment_of_mem_splitRoute (h : value ∈ splitRoute path) : IsSegment value := by
  obtain ⟨piece, hpiece, rfl⟩ := List.mem_map.mp h
  have hne : piece ≠ [] := by simpa using (List.mem_filter.mp hpiece).2
  refine ⟨fun hempty => hne (by simpa using hempty), ?_⟩
  rw [String.toList_ofList]
  exact not_mem_of_mem_segments hpiece

end StyioPlatform.Routing
