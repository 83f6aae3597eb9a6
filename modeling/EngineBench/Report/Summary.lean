-- The report on the results of a sweep: rates per thread count, timings of each command, and
-- the resource usage of the daemons.
import EngineBench.Bench.Result
import EngineBench.Number.Fixed
import EngineBench.Report.Paint
import EngineBench.Report.Table
import EngineBench.Stats.Metrics

namespace EngineBench.Report

def heading (colour : Bool) (title : String) : String := Paint.bold.apply colour title

/-! ## Rates -/

/-- Rates have two places and fill seven columns. -/
def rateFormat : Number.FixedFormat := ⟨2, 7, false⟩

/-- The most threads of any result, and one if there is no result. -/
def columnCount (results : List Result) : Nat :=
  match results with
  | [] => 1
  | _ => (results.map fun r => r.threads.toNat).foldl max 0

def rateCell (r : Result) (k : Nat) : String :=
  match r.rates[k]? with
  | some rate => rateFormat.render rate
  | none => "--"

def rateHeading (colour : Bool) (most : Nat) : List String :=
  ["", heading colour "Iter/Thd", heading colour "1 thrd"] ++
    (List.range (most - 1)).map fun k => heading colour (toString (k + 2) ++ " thrds")

def rateRow (most : Nat) (r : Result) : List String :=
  [r.name, toString r.iterations] ++ (List.range most).map (rateCell r)

/-- A row for each result, and a column for each thread count. -/
def summaryTable (colour : Bool) (results : List Result) : Table :=
  let most := columnCount results
  ⟨rateHeading colour most :: results.map (rateRow most)⟩

/-! ## Timings -/

/-- Timings have two places and fill six columns. -/
def timingFormat : Number.FixedFormat := ⟨2, 6, false⟩

def errorCell (colour : Bool) (errors : UInt32) : String :=
  if errors == 0 then "0" else Paint.red.apply colour (toString errors)

def timingRow (colour : Bool) (command : String) (t : Timings) : List String :=
  [command, timingFormat.render t.min.toFloat, timingFormat.render t.max.toFloat,
   timingFormat.render t.avg, timingFormat.render t.median, timingFormat.render t.stddev,
   errorCell colour t.errors]

def timingHeading (colour : Bool) (title : String) : List String :=
  Paint.green.apply colour title ::
    ["Min", "Max", "Avg", "Median", "Stddev", "Errors"].map (heading colour)

/-- The timings of one step. Commands stand in the order of the benchmark, each once, and one
that no iteration knows is left out. -/
def detailTable (colour : Bool) (r : Result) (threads : Nat) (records : List Record) : Table :=
  let known := timings records
  let row (command : String) : Option (List String) :=
    (known.lookup command).map (timingRow colour command)
  ⟨timingHeading colour (r.name ++ ":" ++ toString threads) :: r.commands.eraseDups.filterMap row⟩

/-! ## Resource usage -/

def usageFormat : Number.FixedFormat := ⟨2, 0, false⟩

def changeFormat : Number.FixedFormat := ⟨2, 0, true⟩

/-- Whole megabytes, cut off below. -/
def megabytes (bytes : Float) : String := toString (bytes / 1048576).toUInt64 ++ " MB"

def percent (x : Float) : String := usageFormat.render x ++ " %"

/-- The change against the baseline, and blank cells where there is none. -/
def changeCells (baseline : Option Metrics) (m : Metrics) : List String :=
  match baseline with
  | some b =>
    let o := overhead b m
    [changeFormat.render o.memPercent ++ "%", changeFormat.render o.cpuFactor ++ "x"]
  | none => ["", ""]

def usageRow (title : String) (baseline : Option Metrics) (m : Metrics) : List String :=
  [title, megabytes m.minMem.toFloat, megabytes m.maxMem.toFloat, megabytes m.avgMem,
   percent m.minCpu, percent m.maxCpu, percent m.avgCpu] ++ changeCells baseline m

/-- The rows of one result, one for each step. `baseline` holds the steps to compare with. -/
def usageRows (baseline : Option (List Metrics)) (r : Result) : List (List String) :=
  r.steps.zipIdx.map fun (records, j) =>
    usageRow (r.name ++ ":" ++ toString (j + 1)) (baseline.bind (·[j]?)) (metrics records)

def usageHeading (colour : Bool) : List String :=
  ["Bench / driver / threads", "Min mem", "Max mem", "Avg mem", "Min CPU", "Max CPU", "Avg CPU",
   "Mem %", "CPU x"].map (heading colour)

/-- Every result but a limit run, each after the first compared with the first at the same number
of threads; nothing if there is no such result. -/
def overheadTable? (colour : Bool) (results : List Result) : Option Table :=
  match results.filter (fun r => !r.isLimit) with
  | [] => none
  | first :: rest =>
    let baseline := first.steps.map metrics
    some ⟨usageHeading colour :: usageRows none first ++ rest.flatMap (usageRows (some baseline))⟩

def overheadText (colour : Bool) (results : List Result) : String :=
  match overheadTable? colour results with
  | some table => table.render
  | none => "No data"

/-! ## The whole report -/

def title (colour : Bool) (text : String) : String :=
  "\n" ++ Paint.reversedGreen.apply colour text ++ "\n"

/-- The detail tables of the results that are no limit run, step by step. -/
def detailTables (colour : Bool) (results : List Result) : List Table :=
  (results.filter fun r => !r.isLimit).flatMap fun r =>
    r.steps.zipIdx.map fun (records, j) => detailTable colour r (j + 1) records

/-- What the program prints when a sweep is over. -/
def text (colour overhead : Bool) (results : List Result) : String :=
  title colour " SUMMARY TIMINGS/THREAD RATES " ++ (summaryTable colour results).render ++ "\n" ++
  title colour " DETAILED COMMAND TIMINGS/STATISTICS " ++
  String.join ((detailTables colour results).map fun t => t.render ++ "\n") ++
  (if overhead then title colour " OVERHEAD " ++ overheadText colour results ++ "\n" else "")

end EngineBench.Report
