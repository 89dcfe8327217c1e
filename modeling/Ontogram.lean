import Ontogram.Main
import Ontogram.Proofs.Diagram.Authoring
import Ontogram.Proofs.Diagram.Bonds
import Ontogram.Proofs.Diagram.Compile
import Ontogram.Proofs.Diagram.Containers
import Ontogram.Proofs.Diagram.Forest
import Ontogram.Proofs.Diagram.Independence
import Ontogram.Proofs.Diagram.Isolates
import Ontogram.Proofs.Diagram.Needs
import Ontogram.Proofs.Diagram.Ontologies
import Ontogram.Proofs.Diagram.Order
import Ontogram.Proofs.Diagram.Overwriting
import Ontogram.Proofs.Diagram.Placement
import Ontogram.Proofs.Diagram.Report
import Ontogram.Proofs.Diagram.Roots
import Ontogram.Proofs.Diagram.Schedule
import Ontogram.Proofs.Diagram.Skipping
import Ontogram.Proofs.Diagram.Stitching
import Ontogram.Proofs.Instance.Adopted
import Ontogram.Proofs.Instance.Atomic
import Ontogram.Proofs.Instance.Commuting
import Ontogram.Proofs.Instance.Connection
import Ontogram.Proofs.Instance.Connector
import Ontogram.Proofs.Instance.Grounded
import Ontogram.Proofs.Instance.Instantiation
import Ontogram.Proofs.Instance.Naming
import Ontogram.Proofs.Instance.Resolved
import Ontogram.Proofs.Instance.Scoping
import Ontogram.Proofs.Instance.Shared
import Ontogram.Proofs.Instance.Unrecorded
import Ontogram.Proofs.Json.Record
import Ontogram.Proofs.Label.Printing
import Ontogram.Proofs.Storage.Confinement
import Ontogram.Proofs.Storage.FileTree
import Ontogram.Proofs.Storage.Output
import Ontogram.Proofs.Storage.TemplateDirectory
import Ontogram.Proofs.TermGraph.Distances
import Ontogram.Proofs.TermGraph.Induced
import Ontogram.Proofs.TermGraph.Insertions
import Ontogram.Proofs.TermGraph.Normalized
import Ontogram.Proofs.TermGraph.Reachable
