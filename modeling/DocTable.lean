import DocTable.Main
import DocTable.Proofs.ExtendedJson.RoundTrip
import DocTable.Proofs.Table.Flatten
import DocTable.Proofs.Wire.Decoding
import DocTable.Proofs.Wire.Refusal
import DocTable.Proofs.Wire.Bounds
import DocTable.Proofs.Wire.Locality
import DocTable.Proofs.Source.Calls
import DocTable.Proofs.Source.WireStream
import DocTable.Proofs.Source.Cut
import DocTable.Proofs.Source.Probe
import DocTable.Proofs.Table.Rectangle
import DocTable.Proofs.Report.Rows
import DocTable.Proofs.Source.Pages
import DocTable.Proofs.Source.FirstFailure
import DocTable.Proofs.Source.Lines
import DocTable.Proofs.CommandLine.Output
import DocTable.Proofs.Depth
import DocTable.Proofs.Report.PageSize
import DocTable.Proofs.Table.Typing
import DocTable.Proofs.Binary64.Integer
import DocTable.Proofs.Table.Widening
import DocTable.Proofs.Table.Evolution
import DocTable.Proofs.Json.Distinct
import DocTable.Proofs.ExtendedJson.Plain
import DocTable.Proofs.Report.Csv
import DocTable.Proofs.Report.ColumnFile
import DocTable.Proofs.Report.Summary
import DocTable.Proofs.Decimal128
import DocTable.Proofs.Source.Translation
import DocTable.Proofs.Wire.Lengths
