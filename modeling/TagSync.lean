import TagSync.Hub.Repair
import TagSync.Main
import TagSync.Schema.Migration
import TagSync.Session.Scripted
import TagSync.Proofs.Convergence
import TagSync.Proofs.Copies
import TagSync.Proofs.Guarded
import TagSync.Proofs.Halfway
import TagSync.Proofs.Idempotence
import TagSync.Proofs.LatestOnly
import TagSync.Proofs.Readback
import TagSync.Proofs.Rejections
import TagSync.Proofs.Retries
import TagSync.Proofs.Residues
import TagSync.Proofs.Rightful
import TagSync.Proofs.Untouched
import TagSync.Proofs.Updates
import TagSync.Proofs.Portions
import TagSync.Proofs.Conduct
import TagSync.Proofs.Layout
import TagSync.Proofs.VersionRounds
import TagSync.Proofs.Deletions
import TagSync.Proofs.Ancestry
import TagSync.Proofs.Listings
import TagSync.Proofs.Digests
import TagSync.Proofs.Names
import TagSync.Proofs.Codecs
import TagSync.Proofs.Columns
import TagSync.Proofs.Logbook
import TagSync.Proofs.Migrations
import TagSync.Proofs.Lookups
