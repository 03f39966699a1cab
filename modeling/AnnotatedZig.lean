import AnnotatedZig.Main
import AnnotatedZig.Scan.Session
import AnnotatedZig.Line.Tree
import AnnotatedZig.Proofs.Text.Lines
import AnnotatedZig.Proofs.Block.Cut
import AnnotatedZig.Proofs.Block.Opening
import AnnotatedZig.Proofs.Block.Run
import AnnotatedZig.Proofs.Block.Extraction
import AnnotatedZig.Proofs.Block.FixedPoint
import AnnotatedZig.Proofs.Line.Basic
import AnnotatedZig.Proofs.Line.Printed
import AnnotatedZig.Proofs.Text.Trim
import AnnotatedZig.Proofs.ZigType
import AnnotatedZig.Proofs.Render.Basic
import AnnotatedZig.Proofs.Block.Whole
import AnnotatedZig.Proofs.Render.RoundTrip
import AnnotatedZig.Proofs.Scan.Concatenation
import AnnotatedZig.Proofs.Scan.Visits
import AnnotatedZig.Proofs.Scan.Coherence
import AnnotatedZig.Proofs.Scan.Conservation
import AnnotatedZig.Proofs.Scan.Place
import AnnotatedZig.Proofs.Scan.Trace
import AnnotatedZig.Proofs.Line.Layout
import AnnotatedZig.Proofs.Command.Arguments
import AnnotatedZig.Proofs.Command.Source
import AnnotatedZig.Proofs.Command.Store
import AnnotatedZig.Proofs.Scan.Blame
import AnnotatedZig.Proofs.Scan.Naming
import AnnotatedZig.Proofs.Command.Run
import AnnotatedZig.Proofs.Command.Failures
import AnnotatedZig.Proofs.Line.TagLayout
import AnnotatedZig.Proofs.Scan.Routing
import AnnotatedZig.Proofs.Scan.Documentation
import AnnotatedZig.Proofs.Scan.Waiting
import AnnotatedZig.Proofs.Scan.TagPlace
import AnnotatedZig.Proofs.ZigType.Forms
import AnnotatedZig.Proofs.Declaration.Identity
import AnnotatedZig.Proofs.Scan.DocLine
import AnnotatedZig.Proofs.Location.Walk
