import MessageBroker.Offset
import MessageBroker.Topic.Name
/-!
# Broker errors

The ways a broker operation fails, each with its wording and its code on the wire.

## Main definitions

* `BrokerError`, `BrokerError.message`, `BrokerError.code`
* `ErrorCode`: the codes of the wire, with `ErrorCode.ofInt` and `ErrorCode.toInt`
* `TopicName.parse`, `OffsetSpec.ofInt`: checks that fail with an invalid argument

## Main results

* `ErrorCode.ofInt_toInt`: every code survives writing and reading back
-/

namespace MessageBroker

/-- Why a broker operation fails. -/
inductive BrokerError where
  | topicNotFound (topic : TopicName)
  | partitionNotFound (topic : TopicName) (key : String)
  | offsetNotFound (topic : TopicName) (offset : OffsetSpec)
  | invalidArgument (text : String)
  | cancelled
  deriving DecidableEq

/-- The wording of each failure. -/
def BrokerError.message : BrokerError → String
  | .topicNotFound t => "Topic '" ++ t.val ++ "' not found"
  | .partitionNotFound t k => "Partition '" ++ k ++ "' does not exist in topic '" ++ t.val ++ "'"
  | .offsetNotFound t o => "Offset " ++ o.render ++ " not found in topic '" ++ t.val ++ "'"
  | .invalidArgument text => "Invalid argument: " ++ text
  | .cancelled => "Subscription cancelled"

/-- The status codes of the wire: success, the five failures, and a code for anything else. -/
inductive ErrorCode where
  | unknown
  | none
  | topicNotFound
  | partitionNotFound
  | offsetNotFound
  | invalidArgument
  | cancelled
  deriving DecidableEq, Repr

namespace ErrorCode

/-- The number written for each code. -/
def toInt : ErrorCode → Int
  | .unknown => -1
  | .none => 0
  | .topicNotFound => 1
  | .partitionNotFound => 2
  | .offsetNotFound => 3
  | .invalidArgument => 4
  | .cancelled => 5

/-- The code a number stands for: `0` to `5` are themselves, every other number is unknown. -/
def ofInt (v : Int) : ErrorCode :=
  if v = 0 then .none
  else if v = 1 then .topicNotFound
  else if v = 2 then .partitionNotFound
  else if v = 3 then .offsetNotFound
  else if v = 4 then .invalidArgument
  else if v = 5 then .cancelled
  else .unknown

/-- Every code survives writing and reading back. -/
@[simp] theorem ofInt_toInt (c : ErrorCode) : ofInt c.toInt = c := by
  cases c <;> decide

end ErrorCode

/-- The code of each failure on the wire. -/
def BrokerError.code : BrokerError → ErrorCode
  | .topicNotFound _ => .topicNotFound
  | .partitionNotFound _ _ => .partitionNotFound
  | .offsetNotFound _ _ => .offsetNotFound
  | .invalidArgument _ => .invalidArgument
  | .cancelled => .cancelled

/-- Checks a topic name; a broken rule is an invalid argument. -/
def TopicName.parse (s : String) : Except BrokerError TopicName :=
  (TopicName.check s).mapError fun p => .invalidArgument p.message

/-- The read position a signed number stands for: `-1` is the latest message, a number from
`0` up is that offset, and any other number is an invalid argument. -/
def OffsetSpec.ofInt (v : Int) : Except BrokerError OffsetSpec :=
  if v = -1 then .ok .latest
  else if 0 ≤ v then .ok (.exactly v.toNat)
  else .error (.invalidArgument
    ("Offset must be -1 (latest) or non-negative, got " ++ toString v))

end MessageBroker
