-- The rows on resource usage. Limit runs are left out before anything is counted, so the first of
-- the other results is the baseline, and a row is compared with the step of the baseline that has
-- as many threads as the row has.
import EngineBench.Report.Summary

namespace EngineBench.Report

/-! ## Places in a list of parts -/

section

variable {α β : Type} {l : List α} {i j : Nat} {x : α}

end

/-! ## Cells -/

/-- The results that are no limit runs. -/
def measured (results : List Result) : List Result := results.filter fun r => !r.isLimit

end EngineBench.Report
