import ApiNotes.Proofs.BraceCounts
import ApiNotes.Proofs.ExcludedDirectories
import ApiNotes.Proofs.Failures
import ApiNotes.Proofs.FileNames
import ApiNotes.Proofs.Frames
import ApiNotes.Proofs.Imports
import ApiNotes.Proofs.LineLookups
import ApiNotes.Proofs.OwnPlaces
import ApiNotes.Proofs.ReaderTurns
import ApiNotes.Proofs.RouteListings
import ApiNotes.Proofs.SpanBounds
import ApiNotes.Proofs.TextSearch
import ApiNotes.Proofs.TrailingBlanks
import ApiNotes.Proofs.TypeExpressions
import ApiNotes.Proofs.TypeParameters
import ApiNotes.Proofs.Views
import ApiNotes.Tools.Session
