import LoadGenerator.Service.Metrics

/-!
# The book of calls

Calls under names, from their beginning to their end. A call ends by finishing, which counts and logs it, or by being dropped, which only lets it leave the gauge; beginning again under the same name drops the older call.
-/

namespace LoadGenerator.Service

structure CallBook where
  metrics : Metrics := {}
  opened : List (String × CallLabels) := []
  /-- The finished calls, the latest last. -/
  log : List CallEvent := []

/-- What is known of a call when it finishes, besides its labels. -/
structure CallEnding where
  requestId : String
  traceId : String
  bytesIn : Nat
  bytesOut : Nat
  failure : Option Status

inductive BookEntry where
  | begin (name : String) (labels : CallLabels)
  | finish (name : String) (ending : CallEnding)
  | drop (name : String)
  /-- A run of load ends. -/
  | run (mode outcome : String)

namespace CallBook

/-- The book without the open call of a name. -/
def strike (book : CallBook) (name : String) : CallBook :=
  { book with opened := book.opened.filter fun (other, _) => other != name }

def drop (book : CallBook) (name : String) : CallBook :=
  match book.opened.lookup name with
  | none => book
  | some labels => { book.strike name with metrics := book.metrics.release labels }

def begin (book : CallBook) (name : String) (labels : CallLabels) : CallBook :=
  let book := book.drop name
  { book with metrics := book.metrics.begin labels, opened := (name, labels) :: book.opened }

def finish (book : CallBook) (name : String) (ending : CallEnding) : CallBook :=
  match book.opened.lookup name with
  | none => book
  | some labels =>
    let event : CallEvent := { ending with labels }
    { book.strike name with metrics := book.metrics.finish labels event.code, log := book.log ++ [event] }

def enter (book : CallBook) : BookEntry → CallBook
  | .begin name labels => book.begin name labels
  | .finish name ending => book.finish name ending
  | .drop name => book.drop name
  | .run mode outcome => { book with metrics := book.metrics.recordRun mode outcome }

def close (book : CallBook) : CallBook := book.opened.foldl (fun book (name, _) => book.drop name) book

end CallBook

end LoadGenerator.Service
