import Courier.Store.State
/-
Faults planned for a store, so that its users can be seen to cope.
-/
namespace Courier

/-- The places at which a call on the store can be met by a fault. -/
inductive FaultPoint where
  | begin
  | get
  | find
  | due
  | swap
  | outgoing
  | document
  | stage
  | documentIn
  | saveDocument
  | commit
deriving DecidableEq, Repr

def FaultPoint.text : FaultPoint → String
  | .begin => "begin"
  | .get => "get"
  | .find => "find"
  | .due => "fetch"
  | .swap => "cas"
  | .outgoing => "outgoing"
  | .document => "load_document"
  | .stage => "tx_insert"
  | .documentIn => "tx_load"
  | .saveDocument => "tx_save"
  | .commit => "tx_commit"

def FaultPoint.all : List FaultPoint :=
  [.begin, .get, .find, .due, .swap, .outgoing, .document, .stage, .documentIn, .saveDocument,
    .commit]

def FaultPoint.read? (text : String) : Option FaultPoint :=
  FaultPoint.all.find? (·.text == text)

/-- The failure of a call that a fault has met. -/
def FaultPoint.failure (point : FaultPoint) : StoreError :=
  .backend ("injected " ++ point.text ++ " failure")

inductive FaultMode where
  /-- The call fails without effect. -/
  | fail
  /-- The row's own values are written again before the call. -/
  | touch
  /-- Another transaction is committed before the call. -/
  | race (tx : Transaction)
deriving DecidableEq

/-- A planned fault: it lets `skip` calls pass and then meets `count` of them.  A fault with a
status meets only changes that expect it. -/
structure Fault where
  point : FaultPoint
  mode : FaultMode
  skip : Nat
  count : Nat
  status : Option Status
deriving DecidableEq

/-- The fault looks at a call. -/
def Fault.watches (fault : Fault) (point : FaultPoint) (expected : Option Status) : Bool :=
  fault.point == point && decide (0 < fault.count) &&
    (fault.status.isNone || fault.status == expected)

/-- What meets a call, and the faults that are left.  Only the first fault that looks at the call
counts it. -/
def strike (point : FaultPoint) (expected : Option Status) :
    List Fault → Option FaultMode × List Fault
  | [] => (none, [])
  | fault :: rest =>
      if fault.watches point expected then
        if 0 < fault.skip then (none, { fault with skip := fault.skip - 1 } :: rest)
        else (some fault.mode, { fault with count := fault.count - 1 } :: rest)
      else
        let (mode, rest) := strike point expected rest
        (mode, fault :: rest)

end Courier
