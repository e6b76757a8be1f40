import ControlRecords.Alarm
import ControlRecords.Archive.Arrays
import ControlRecords.Archive.Exchange
import ControlRecords.Archive.Files
import ControlRecords.Archive.Image
import ControlRecords.Catalogue
import ControlRecords.Controller.Basic
import ControlRecords.Controller.Driving
import ControlRecords.Controller.Initialisation
import ControlRecords.Controller.Processing
import ControlRecords.Controller.Registration
import ControlRecords.Controller.Scheduling
import ControlRecords.Decimal.Binary
import ControlRecords.Decimal.Positional
import ControlRecords.Decimal.Reading
import ControlRecords.Decimal.Shortest
import ControlRecords.Identifier
import ControlRecords.Link
import ControlRecords.Numeral
import ControlRecords.Octets
import ControlRecords.Record.Array
import ControlRecords.Record.Basic
import ControlRecords.Record.Field
import ControlRecords.Record.Processing
import ControlRecords.Record.Scalar
import ControlRecords.Register.Access
import ControlRecords.Register.Binding
import ControlRecords.Register.Exchange
import ControlRecords.Register.Memory
import ControlRecords.Register.Parameter
import ControlRecords.Registry
import ControlRecords.Scan
import ControlRecords.Text
import ControlRecords.Value.Basic
import ControlRecords.Value.Convert
import ControlRecords.Value.Text
import ControlRecords.Variable.Basic
import ControlRecords.Variable.Binding
import ControlRecords.Variable.Exchange
import ControlRecords.Variable.Group
import ControlRecords.Variable.Transfer
import ControlRecords.Proofs.Locality
import ControlRecords.Proofs.TwoPhase
import ControlRecords.Proofs.Startup
import ControlRecords.Proofs.Inactive
import ControlRecords.Proofs.Completion
import ControlRecords.Proofs.MaskedWrites
import ControlRecords.Proofs.MaskedStartup
import ControlRecords.Proofs.Endings
import ControlRecords.Proofs.Regions
import ControlRecords.Proofs.Independence
import ControlRecords.Proofs.Saving
import ControlRecords.Proofs.Restart
import ControlRecords.Proofs.WordPass
import ControlRecords.Proofs.SupportsAgree
import ControlRecords.Proofs.WordStartup
import ControlRecords.Proofs.Accesses
import ControlRecords.Proofs.Operations
import ControlRecords.Proofs.SecondPass
import ControlRecords.Proofs.LastValue
import ControlRecords.Proofs.Connections
import ControlRecords.Proofs.Events
import ControlRecords.Proofs.TextLimit
import ControlRecords.Proofs.Numerals
import ControlRecords.Proofs.Literals
import ControlRecords.Proofs.Devices
import ControlRecords.Proofs.Occurrences
import ControlRecords.Proofs.ScanLists
import ControlRecords.Proofs.Requests
import ControlRecords.Proofs.Copies
import ControlRecords.Proofs.Mirror
import ControlRecords.Proofs.Surplus
import ControlRecords.Proofs.Naming
import ControlRecords.Proofs.Registrations
import ControlRecords.Proofs.TableSize
import ControlRecords.Proofs.Refusals
import ControlRecords.Proofs.FailedAccesses
import ControlRecords.Proofs.Addresses
import ControlRecords.Proofs.Definedness
import ControlRecords.Proofs.MultiBit
import ControlRecords.Proofs.BumplessStart
import ControlRecords.Proofs.MultiBitTransfer
import ControlRecords.Proofs.RegisterContents
import ControlRecords.Proofs.StartingValues
import ControlRecords.Proofs.QuietStart
import ControlRecords.Proofs.Takeover
import ControlRecords.Proofs.ConstantLinks
import ControlRecords.Proofs.ParameterPieces
import ControlRecords.Proofs.HardwareLinks
import ControlRecords.Proofs.SignedLiterals
import ControlRecords.Proofs.ConversionRoutes
import ControlRecords.Proofs.ShortestDecimals
import ControlRecords.Proofs.DecimalTexts
import ControlRecords.Proofs.NumberTexts
import ControlRecords.Proofs.AccessKeys
import ControlRecords.Proofs.FieldAccess
import ControlRecords.Proofs.ArrayWrites
import ControlRecords.Proofs.Restoring
import ControlRecords.Proofs.StoredForm
import ControlRecords.Proofs.ReportedAlarms
