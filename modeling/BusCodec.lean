import BusCodec.Json.Parser
import BusCodec.Main
import BusCodec.Procedure.Reading
import BusCodec.Procedure.Writing
import BusCodec.Proofs.Generator.Arguments
import BusCodec.Proofs.Generator.Counterparts
import BusCodec.Proofs.Generator.Extent
import BusCodec.Proofs.Generator.FailedMembers
import BusCodec.Proofs.Generator.HistoryFree
import BusCodec.Proofs.Generator.Independence
import BusCodec.Proofs.Generator.MapStyles
import BusCodec.Proofs.Generator.NativeTexts
import BusCodec.Proofs.Generator.Prototypes
import BusCodec.Proofs.Generator.References
import BusCodec.Proofs.Generator.Reports
import BusCodec.Proofs.Generator.Session
import BusCodec.Proofs.Procedure.Containment
import BusCodec.Proofs.Procedure.Decoding
import BusCodec.Proofs.Procedure.MessageRoundTrip
import BusCodec.Proofs.Procedure.ReaderRuns
import BusCodec.Proofs.Procedure.ReadersAgree
import BusCodec.Proofs.Procedure.Rewriting
import BusCodec.Proofs.Procedure.Runs
import BusCodec.Proofs.Procedure.SelfDelimiting
import BusCodec.Proofs.Procedure.ShapeChecks
import BusCodec.Proofs.Procedure.VariantPaths
import BusCodec.Proofs.Procedure.WellFormed
import BusCodec.Proofs.Signature.Diagnostics
import BusCodec.Proofs.Signature.Grammar
import BusCodec.Proofs.SourceText.Outline
import BusCodec.Proofs.Wire.Utf8Faults
import BusCodec.Proofs.Wire.VariantRoundTrip
import BusCodec.Proofs.Wire.WriterRuns
import BusCodec.SourceText.Module
