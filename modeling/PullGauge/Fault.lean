import PullGauge.Payload.Writing
import PullGauge.Calendar.Moment

/-!
# Faults

Why an operation gives no answer. A failure is one that callers are told about in so
many words: a bad configuration, a refused query, a reply that reports an error. Every
other fault says which expectation about the data did not hold.
-/

namespace PullGauge

inductive Failure.Category where
  | general
  | configuration
  | validation (errors : List Text)
  | authentication
  | rateLimit (resetAt : Moment)
  | rejectedQuery
  | remote
  | lookup
  deriving DecidableEq

structure Failure where
  category : Failure.Category
  /-- Usually a text; a message that came from the service is kept as it is. -/
  message : Payload
  status : Option Int
  requestId : Option Text

inductive Fault where
  | failure (f : Failure)
  | notARepository (url : Text)
  | emptyChunk
  | noCapacity
  /-- A text that does not write the number, date, level or format expected of it. -/
  | unreadable
  /-- A value that no request or reply can carry. -/
  | unsendable
  | missing (key : Text)
  | noFirst
  | notIterable (kind : Payload.Kind)
  | notIndexable (kind : Payload.Kind)
  | notKeyed (kind : Payload.Kind)
  | lacks (kind : Payload.Kind) (operation : Text)
  /-- Data that do not go together: a number and a text, a list as a key. -/
  | mismatch
  | beyondCalendar
  | beyondClock
  | tooLarge
  /-- A rounding of what is no decimal, or one that needs more digits or places than
  decimals have. -/
  | tooPrecise
  | noSuchPage
  | badAddress
  | endless
  | tooDeep
  | packed (reason : Text)

abbrev Outcome (α : Type) := Except Fault α

namespace Outcome

section Binds

variable {α β : Type}

@[simp] theorem ok_bind (a : α) (next : α → Outcome β) : (Except.ok a >>= next) = next a := rfl

@[simp] theorem error_bind (fault : Fault) (next : α → Outcome β) :
    (Except.error fault >>= next) = .error fault := rfl

@[simp] theorem pure_eq_ok (a : α) : (pure a : Outcome α) = .ok a := rfl

theorem exists_of_bind {x : Outcome α} {next : α → Outcome β} {b : β}
    (h : x >>= next = .ok b) : ∃ a, x = .ok a ∧ next a = .ok b := by
  cases x with
  | error fault => cases h
  | ok a => exact ⟨a, rfl, h⟩

theorem eq_ok_of_toOption {x : Outcome α} {a : α} (h : x.toOption = some a) : x = .ok a := by
  cases x with
  | error fault => cases h
  | ok b => exact congrArg _ (Option.some.inj h)

theorem exists_ok {x : Outcome α} (h : x.toOption.isSome = true) :
    ∃ a, x = .ok a := by
  cases x with
  | error fault => cases h
  | ok a => exact ⟨a, rfl⟩

theorem exists_error {x : Outcome α} (h : x.toOption.isNone = true) :
    ∃ fault, x = .error fault := by
  cases x with
  | error fault => exact ⟨fault, rfl⟩
  | ok a => cases h

end Binds

end Outcome

namespace Failure

def plain (category : Category) (message : Text) : Failure := ⟨category, .text message, none, none⟩

def display (f : Failure) : Text := f.message.display

end Failure

namespace Fault

def remote (message : Text) : Fault := .failure (.plain .remote message)

def display : Fault → Text
  | .failure f => f.display
  | .notARepository url => "Not a repository URL: " ++ Text.quoted url
  | .emptyChunk => "size must be at least 1"
  | .noCapacity => "max_size must be at least 1"
  | .unreadable => "unreadable value"
  | .unsendable => "unsendable value"
  | .missing key => Text.quoted key
  | .noFirst => "0"
  | .notIterable kind => '\x27' :: kind.name ++ "' object is not iterable".toList
  | .notIndexable kind => '\x27' :: kind.name ++ "' object is not subscriptable".toList
  | .notKeyed .text => "string indices must be integers, not 'str'"
  | .notKeyed _ => "list indices must be integers or slices, not str"
  | .lacks kind operation =>
    '\x27' :: kind.name ++ "' object has no attribute '".toList ++ operation ++ ['\x27']
  | .mismatch => "mismatched values"
  | .beyondCalendar => "date value out of range"
  | .beyondClock => "time value out of range"
  | .tooLarge => "number too large"
  | .tooPrecise => "too many digits"
  | .noSuchPage => "no such page"
  | .badAddress => "bad address"
  | .endless => "too many pages"
  | .tooDeep => "too many levels"
  | .packed reason => reason

end Fault

end PullGauge
