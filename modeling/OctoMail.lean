import OctoMail.Account.CopyMove
import OctoMail.Account.Counters
import OctoMail.Account.HighestModSeq
import OctoMail.Account.Isolation
import OctoMail.Account.LiveMailboxes
import OctoMail.Account.Publication
import OctoMail.Deliverability.SourceChoice
import OctoMail.Deliverability.Verp
import OctoMail.Deliverability.WebhookWorker
import OctoMail.Ha.Coordinator
import OctoMail.Ha.Fencing
import OctoMail.Imap.Criteria
import OctoMail.Imap.Slicing
import OctoMail.Imap.Sort
import OctoMail.Imap.UidLists
import OctoMail.Imap.UrlAuth
import OctoMail.Imap.UrlPaths
import OctoMail.Imap.Wildcards
import OctoMail.Jmap.Snippets
import OctoMail.Mailflow.ArrivingMail
import OctoMail.Mailflow.LineEnds
import OctoMail.Mailflow.MacFields
import OctoMail.Ops.Mbox
import OctoMail.Ops.ReportIngest
import OctoMail.Projection.IndexedText
import OctoMail.Provisioning.AgentMailboxes
import OctoMail.Provisioning.Identities
import OctoMail.Queue.Exclusion
import OctoMail.Queue.Leases
import OctoMail.Queue.LogFold
import OctoMail.Smtp.FutureRelease
import OctoMail.Smtp.Recipients
import OctoMail.Smtp.Reputation
import OctoMail.Smtp.StartTls
import OctoMail.Smtp.Submission
import OctoMail.Store.Reclamation
import OctoMail.WebApi.Listing
