import Palimpsest.Build.Visit
import Palimpsest.Files.Outline
import Palimpsest.Fragment.Find
import Palimpsest.Fragment.Forest
import Palimpsest.Generator
import Palimpsest.Imports
import Palimpsest.Main
import Palimpsest.Order
import Palimpsest.Proofs.Output.Export
import Palimpsest.Proofs.Output.Failure
import Palimpsest.Proofs.Output.Sibling
import Palimpsest.Proofs.Output.Update
import Palimpsest.Proofs.Section.Fault
import Palimpsest.Sample
import Palimpsest.Section.Fill
import Palimpsest.Proofs.Section.Recognition
import Palimpsest.Proofs.Fragment.Scaffold
import Palimpsest.Proofs.Output.Template
import Palimpsest.Proofs.Output.Account
import Palimpsest.Proofs.Fragment.Members
import Palimpsest.Proofs.Fragment.Carried
import Palimpsest.Proofs.Linking
import Palimpsest.Proofs.Files.Extension
import Palimpsest.Proofs.Output.Naming
import Palimpsest.Proofs.Build.Dispatch
import Palimpsest.Proofs.Build.SideBySide
import Palimpsest.Proofs.Section.Log
import Palimpsest.Proofs.Restored
import Palimpsest.Proofs.Fragment.Order
import Palimpsest.Proofs.Config
import Palimpsest.Proofs.Section.Leftmost
import Palimpsest.Proofs.Section.Returns
import Palimpsest.Proofs.Output.Clashes
import Palimpsest.Proofs.Fragment.Filling
import Palimpsest.Proofs.Check
import Palimpsest.Proofs.Imports
import Palimpsest.Proofs.Files.Entry
import Palimpsest.Proofs.Search
import Palimpsest.Proofs.Digest.Checksum
import Palimpsest.Proofs.Fragment.Depth
import Palimpsest.Proofs.Fragment.Preorder
import Palimpsest.Proofs.Fragment.Slot
