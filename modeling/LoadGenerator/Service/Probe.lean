import LoadGenerator.Json.Printer
import LoadGenerator.Network.Target
import LoadGenerator.Service.Exposition

/-!
# Metrics and probe pages

Three pages over HTTP: the metrics, a health probe, and a readiness probe that fails once the service shuts down. Each is read with GET, or with HEAD for its header alone.
-/

namespace LoadGenerator.Service

inductive PageBody where
  | empty
  | text (s : String)
  | metrics (lines : List String)
  deriving DecidableEq

structure Page where
  status : Nat
  contentType : Option String := none
  /-- The methods that the page allows, where another one was used. -/
  allow : Option String := none
  body : PageBody := .empty
  deriving DecidableEq

def pageOf (metrics : Metrics) (shuttingDown : Bool) (path : String) : Option Page :=
  if path = "/metrics" then
    some ⟨200, some "text/plain; version=0.0.4; charset=utf-8", none, .metrics metrics.lines⟩
  else if path = "/healthz" then some ⟨200, some "text/plain; charset=utf-8", none, .text "ok\n"⟩
  else if path = "/readyz" then
    let (status, word) := if shuttingDown then (503, "shutting_down") else (200, "ready")
    some ⟨status, some "application/json", none, .text (Json.object [("status", .string word)]).text⟩
  else none

/-- The answer to a request whose method and target can be understood. -/
def fetch? (metrics : Metrics) (shuttingDown : Bool) (method target : String) : Option Page :=
  match Network.targetPath? target with
  | none => none
  | some path =>
    if !Network.isMethod method then none
    else
      match pageOf metrics shuttingDown path with
      | none => some { status := 404 }
      | some page =>
        if method = "GET" then some page
        else if method = "HEAD" then some { page with body := .empty }
        else some { status := 405, allow := some "GET,HEAD" }

end LoadGenerator.Service
