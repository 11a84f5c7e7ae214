import CircuitGrid.CommandLine.Directory
import CircuitGrid.Main
import CircuitGrid.Program.Text
import CircuitGrid.Proofs.Layout
import CircuitGrid.Proofs.Lowering
import CircuitGrid.Proofs.Bits.Action
import CircuitGrid.Proofs.Bits.Meaning
import CircuitGrid.Proofs.Bits.Lowering
import CircuitGrid.Proofs.Sites
import CircuitGrid.Proofs.Linking
import CircuitGrid.Proofs.LinkedLowering
import CircuitGrid.Proofs.Equality
import CircuitGrid.Proofs.Description.Decoding
import CircuitGrid.Proofs.Description.Encoding
import CircuitGrid.Proofs.Description.RoundTrip
import CircuitGrid.Proofs.Zeros
import CircuitGrid.Proofs.Description.Representable
import CircuitGrid.Proofs.Json.Strings
import CircuitGrid.Proofs.Json.Numbers
import CircuitGrid.Proofs.Json.Values
import CircuitGrid.Proofs.Description.Reading
import CircuitGrid.Proofs.Description.Accepted
import CircuitGrid.Proofs.Description.TextRoundTrip
import CircuitGrid.Proofs.Lowerable
import CircuitGrid.Proofs.Emission
import CircuitGrid.Proofs.OutputColumns
import CircuitGrid.Proofs.Writing
import CircuitGrid.Proofs.Operands
import CircuitGrid.Proofs.Accepting
import CircuitGrid.Proofs.Redistribution
import CircuitGrid.Proofs.Partitions
import CircuitGrid.Proofs.History
import CircuitGrid.Proofs.InPlace
import CircuitGrid.Proofs.Labels
import CircuitGrid.Proofs.Description.Patching
import CircuitGrid.Proofs.Description.Distributed
import CircuitGrid.Proofs.Description.Exact
import CircuitGrid.Proofs.Routes
import CircuitGrid.Proofs.Memory
import CircuitGrid.Proofs.LinkEffect
import CircuitGrid.Proofs.Crossings
import CircuitGrid.Proofs.ControlledPlaceholders
import CircuitGrid.Proofs.SiteOperations
import CircuitGrid.Proofs.OpenQasm
import CircuitGrid.Proofs.Composition
import CircuitGrid.Proofs.ValidChanges
import CircuitGrid.Proofs.LinkWires
import CircuitGrid.Proofs.Placing
import CircuitGrid.Proofs.WellFormed
import CircuitGrid.Proofs.AntiControls
import CircuitGrid.Proofs.Description.Wires
import CircuitGrid.Proofs.Moments
import CircuitGrid.Proofs.Angles
