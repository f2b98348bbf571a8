import TableStore.Main
import TableStore.Proofs.Column.Names
import TableStore.Proofs.Config.Events
import TableStore.Proofs.Config.RoundTrip
import TableStore.Proofs.Database.Contents
import TableStore.Proofs.Database.FirstValue
import TableStore.Proofs.Database.Limits
import TableStore.Proofs.Database.Renderings
import TableStore.Proofs.Migration.Interleaving
import TableStore.Proofs.Migration.Normalization
import TableStore.Proofs.Migration.Resumption
import TableStore.Proofs.Predicate.Acceptance
import TableStore.Proofs.Predicate.Template
import TableStore.Proofs.Statement.Independence
import TableStore.Proofs.Statement.Listing
import TableStore.Proofs.Statement.Writes
