import TestConversion.Report.Record
import TestConversion.Report.Summary

/-!
# Reports
-/

namespace TestConversion.Report

/-- The report of one file. -/
def report (format : Format) (m : Metadata) : String :=
  match format with
  | .text => summary m
  | .json => record m

/-- The report of several files. -/
def reportBatch (format : Format) (files : List ParsedFile) : String :=
  match format with
  | .text => summaryBatch files
  | .json => recordBatch files

end TestConversion.Report
