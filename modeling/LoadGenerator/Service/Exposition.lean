import LoadGenerator.Service.Metrics
import LoadGenerator.Text.Digits

/-!
# The text form of metrics

One line for every series, and two lines about every metric that has a series, in the order of their characters. Labels that differ can be shown alike, and then they are one series: the last of its counts is shown, while latencies are observed together. What depends on a clock, the sum of latencies and the finite buckets, is shown as a question mark.
-/

namespace LoadGenerator.Service

/-- A label value with its quotes, line ends and backslashes escaped. A backslash is held back until the next character, past line ends, and two in a row pass as one that is escaped already. -/
def escapeLabel (pending : Bool) : List Char → List Char
  | [] => if pending then ['\\', '\\'] else []
  | c :: rest =>
    if c = '\n' then '\\' :: 'n' :: escapeLabel pending rest
    else if c = '"' then '\\' :: '"' :: escapeLabel false rest
    else if c = '\\' then if pending then '\\' :: '\\' :: escapeLabel false rest else escapeLabel true rest
    else (if pending then ['\\', '\\'] else []) ++ c :: escapeLabel false rest

def labelText (key value : String) : String :=
  key ++ "=\"" ++ String.ofList (escapeLabel false value.toList) ++ "\""

/-- A series of a metric: its name, its labels in order, and the text of its value. -/
def seriesLine (name : String) (labels : List String) (value : String) : String :=
  name ++ "\x7b" ++ String.intercalate "," labels ++ "\x7d " ++ value

def CallLabels.texts (labels : CallLabels) : List String :=
  [labelText "mode" labels.mode, labelText "endpoint" labels.endpoint]

def FinishLabels.texts (labels : FinishLabels) : List String :=
  labels.call.texts ++ [labelText "code" labels.code.name]

def RunLabels.texts (labels : RunLabels) : List String :=
  [labelText "mode" labels.mode, labelText "outcome" labels.outcome]

/-- The series of a tally under their shown labels, where `join` takes a further count of the same labels. -/
def Tally.shown (texts : κ → List String) (join : Int → Int → Int) (tally : Tally κ) : Tally (List String) :=
  let put (shown : Tally (List String)) (labels : List String) (count : Int) : Tally (List String) :=
    if (shown.lookup labels).isSome then
      shown.map fun (other, known) => if other = labels then (other, join known count) else (other, known)
    else shown ++ [(labels, count)]
  tally.foldl (fun shown (key, count) => put shown (texts key) count) []

/-- The upper ends of the finite buckets. -/
def bucketEnds : List String := ["0.005", "0.01", "0.025", "0.05", "0.1", "0.25", "0.5", "1", "2.5", "5", "10"]

structure MetricHeading where
  name : String
  kind : String
  help : String

def inFlightHeading : MetricHeading :=
  ⟨"cno_app_requests_in_flight", "gauge", "Number of in-flight RPC requests being handled."⟩

def requestsHeading : MetricHeading :=
  ⟨"cno_app_requests_total", "counter", "Total number of RPC requests handled by the application."⟩

def latencyHeading : MetricHeading := ⟨"cno_app_request_latency_seconds", "histogram", "Latency of RPC requests."⟩

def runsHeading : MetricHeading :=
  ⟨"cno_app_work_runs_total", "counter", "Load engine runs by outcome (success, injected, invalid)."⟩

/-- The lines of a metric, none where it has no series. -/
def MetricHeading.lines (heading : MetricHeading) (series : List String) : List String :=
  if series.isEmpty then []
  else s!"# HELP {heading.name} {heading.help}" :: s!"# TYPE {heading.name} {heading.kind}" :: series

/-- The lines of counts, one for every series. -/
def MetricHeading.countLines (heading : MetricHeading) (texts : κ → List String) (tally : Tally κ) : List String :=
  heading.lines ((tally.shown texts fun _ last => last).map fun (labels, count) =>
    seriesLine heading.name labels (toString count))

def latencyLines (labels : List String) (count : Int) : List String :=
  let name := latencyHeading.name
  let bucket (bound value : String) : String := seriesLine (name ++ "_bucket") (labels ++ [labelText "le" bound]) value
  bucketEnds.map (bucket · "?") ++ [
    bucket "+Inf" (toString count),
    seriesLine (name ++ "_sum") labels "?",
    seriesLine (name ++ "_count") labels (toString count)]

/-- Puts a line in its place among sorted ones. -/
def insertLine (line : String) : List String → List String
  | [] => [line]
  | other :: rest => if line < other then line :: other :: rest else other :: insertLine line rest

def Metrics.lines (metrics : Metrics) : List String :=
  let lines :=
    requestsHeading.countLines FinishLabels.texts metrics.requests
    ++ inFlightHeading.countLines CallLabels.texts metrics.inFlight
    ++ runsHeading.countLines RunLabels.texts metrics.runs
    ++ latencyHeading.lines ((metrics.latencies.shown FinishLabels.texts (· + ·)).flatMap fun (labels, count) =>
      latencyLines labels count)
  lines.foldl (fun sorted line => insertLine line sorted) []

end LoadGenerator.Service
