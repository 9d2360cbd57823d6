import Sm83.Bank
import Sm83.Cartridge
import Sm83.Command.Arguments
import Sm83.Command.CommandLine
import Sm83.Command.Host
import Sm83.Command.Session
import Sm83.Files.Fault
import Sm83.Files.Path
import Sm83.Files.Tree
import Sm83.Instruction.Decode
import Sm83.Instruction.Encoding
import Sm83.Instruction.Template
import Sm83.Label.Basic
import Sm83.Label.Map
import Sm83.Listing.Line
import Sm83.Listing.Page
import Sm83.Main
import Sm83.Names.Basic
import Sm83.Names.Constants
import Sm83.Names.SymbolFile
import Sm83.Position
import Sm83.Region
import Sm83.Settings
import Sm83.Sweep.Basic
import Sm83.Sweep.Reference
import Sm83.Sweep.Run
import Sm83.Sweep.Turn
import Sm83.Text.Blank
import Sm83.Text.Line
import Sm83.Text.Numeral
import Sm83.Text.Utf8
import Sm83.Toml.Document
import Sm83.Toml.Quoted
import Sm83.Toml.Scalar
import Sm83.Toml.Statement
import Sm83.Toml.Table
import Sm83.Toml.Value
import Sm83.Proofs.Bank.Address
import Sm83.Proofs.Command.CommandLine
import Sm83.Proofs.Command.Looking
import Sm83.Proofs.Command.Session
import Sm83.Proofs.Command.Sources
import Sm83.Proofs.Command.Words
import Sm83.Proofs.Files.Written
import Sm83.Proofs.Instruction.Decode
import Sm83.Proofs.Instruction.Writing
import Sm83.Proofs.Label.Lookup
import Sm83.Proofs.Listing.Alike
import Sm83.Proofs.Listing.DataBytes
import Sm83.Proofs.Listing.DefinitionLines
import Sm83.Proofs.Listing.Definitions
import Sm83.Proofs.Listing.Faithful
import Sm83.Proofs.Listing.Items
import Sm83.Proofs.Listing.Jumps
import Sm83.Proofs.Listing.LabelState
import Sm83.Proofs.Listing.Loads
import Sm83.Proofs.Listing.NamedWords
import Sm83.Proofs.Listing.Operands
import Sm83.Proofs.Listing.Pruning
import Sm83.Proofs.Listing.Readback
import Sm83.Proofs.Listing.References
import Sm83.Proofs.Listing.Renaming
import Sm83.Proofs.Listing.RoutineNames
import Sm83.Proofs.Listing.Routines
import Sm83.Proofs.Listing.Rows
import Sm83.Proofs.Listing.Sections
import Sm83.Proofs.Names.BadLines
import Sm83.Proofs.Names.Constants
import Sm83.Proofs.Names.Entries
import Sm83.Proofs.Names.Files
import Sm83.Proofs.Names.Literals
import Sm83.Proofs.Names.Merging
import Sm83.Proofs.Names.Positions
import Sm83.Proofs.Names.Writing
import Sm83.Proofs.Sweep.Chained
import Sm83.Proofs.Sweep.CodeLabels
import Sm83.Proofs.Sweep.Counters
import Sm83.Proofs.Sweep.DataLabels
import Sm83.Proofs.Sweep.DataStretches
import Sm83.Proofs.Sweep.HardStop
import Sm83.Proofs.Sweep.Locality
import Sm83.Proofs.Sweep.Origins
import Sm83.Proofs.Sweep.Outcome
import Sm83.Proofs.Sweep.Plain
import Sm83.Proofs.Sweep.Reach
import Sm83.Proofs.Sweep.StopOrder
import Sm83.Proofs.Sweep.Turn
import Sm83.Proofs.Sweep.Usage
import Sm83.Proofs.Text.Cut
import Sm83.Proofs.Text.Fields
import Sm83.Proofs.Text.Numeral
