-- The document in which the Docker daemon reports what a container uses.
import EngineBench.Engine.Error
import EngineBench.Json.Value

namespace EngineBench.Docker

/-- The shape of a document: its members by name, in order. -/
inductive Shape where
  | count
  | text
  /-- Null and a missing member count as nothing. -/
  | optional (s : Shape)
  | list (s : Shape)
  | table (s : Shape)
  | record (members : List (String × Shape))

namespace Shape

def counts (names : List String) : List (String × Shape) := names.map (·, count)

def counts? (names : List String) : List (String × Shape) := names.map (·, optional count)

def interface : Shape :=
  record (counts ["rx_dropped", "rx_bytes", "rx_errors", "tx_packets", "tx_dropped", "rx_packets",
    "tx_errors", "tx_bytes"])

def blockEntry : Shape :=
  record [("major", count), ("minor", count), ("op", text), ("value", count)]

def processor : Shape :=
  record
    [("cpu_usage", record [("percpu_usage", optional (list count)),
       ("usage_in_usermode", count), ("total_usage", count), ("usage_in_kernelmode", count)]),
     ("system_cpu_usage", optional count), ("online_cpus", optional count),
     ("throttling_data", record (counts ["periods", "throttled_periods", "throttled_time"]))]

def memory : Shape :=
  record (("stats", optional (table count)) ::
    counts? ["max_usage", "usage", "failcnt", "limit", "commit", "commit_peak", "commitbytes",
      "commitpeakbytes", "privateworkingset"])

def blockDevices : Shape :=
  record (["io_service_bytes_recursive", "io_serviced_recursive", "io_queue_recursive",
    "io_service_time_recursive", "io_wait_time_recursive", "io_merged_recursive",
    "io_time_recursive", "sectors_recursive"].map (·, optional (list blockEntry)))

def storage : Shape :=
  record (counts? ["read_count_normalized", "read_size_bytes", "write_count_normalized",
    "write_size_bytes"])

def usage : Shape :=
  record
    [("read", text), ("preread", text), ("num_procs", count),
     ("pids_stats", record (counts? ["current", "limit"])),
     ("network", optional interface), ("networks", optional (table interface)),
     ("memory_stats", memory), ("blkio_stats", blockDevices), ("cpu_stats", processor),
     ("precpu_stats", processor), ("storage_stats", storage), ("name", text), ("id", text)]

def misfit {α : Type} (expected : String) : Except ApiError α :=
  .error (.badDocument ("expected " ++ expected))

/-- The complaint about an object without a member that it must have, which is noticed at its
end. -/
def absent {α : Type} (name : String) (members : List (String × JsonValue)) : Except ApiError α :=
  .error (.badDocument ("missing field `" ++ name ++ "` at line 1 column " ++
    toString (JsonValue.object members).text.utf8ByteSize))

mutual

/-- The value in the given shape, without members that have no place in it. -/
def fit (s : Shape) (v : JsonValue) : Except ApiError JsonValue :=
  match s with
  | count =>
    match v with
    | .number (.natural n) => .ok (.number (.natural n))
    | _ => misfit "u64"
  | text =>
    match v with
    | .string t => .ok (.string t)
    | _ => misfit "a string"
  | optional s =>
    match v with
    | .null => .ok .null
    | v => fit s v
  | list s =>
    match v with
    | .list items => do return .list (← items.mapM (fit s))
    | _ => misfit "a sequence"
  | table s =>
    match v with
    | .object members => do
      return .object (← members.mapM fun m => do return (m.1, ← fit s m.2))
    | _ => misfit "a map"
  | record shapes =>
    match v with
    | .object members => do return .object (← fitMembers shapes members)
    | _ => misfit "a map"

def fitMembers (shapes : List (String × Shape)) (members : List (String × JsonValue)) :
    Except ApiError (List (String × JsonValue)) :=
  match shapes with
  | [] => .ok []
  | (name, s) :: rest => do
    let v ← match members.lookup name with
      | some v => fit s v
      | none =>
        match s with
        | optional _ => pure .null
        | _ => absent name members
    return (name, v) :: (← fitMembers rest members)

end

end Shape

end EngineBench.Docker
