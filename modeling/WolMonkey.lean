import WolMonkey.Library.Program
import WolMonkey.Library.Relational
import WolMonkey.Library.Pool
import WolMonkey.Model.Domain
import WolMonkey.Model.Tables
import WolMonkey.Model.Statements
import WolMonkey.Model.Effects
import WolMonkey.Model.Repositories
import WolMonkey.Model.Services
import WolMonkey.Model.Worker
import WolMonkey.Model.Requests
import WolMonkey.Model.Api
import WolMonkey.Model.Web
import WolMonkey.Model.System
import WolMonkey.Model.App
import WolMonkey.Facts.Footprint
import WolMonkey.Facts.Execution
import WolMonkey.Facts.Sessions
import WolMonkey.Facts.Wizard
import WolMonkey.Facts.Accounts
import WolMonkey.Setup.Lockdown
import WolMonkey.Facts.Settings
import WolMonkey.Setup.Administrator
import WolMonkey.Library.SlidingWindow
import WolMonkey.Access.LoginRate
import WolMonkey.Access.TokenScope
import WolMonkey.Machines.Deletion
import WolMonkey.Wake.FailureRecord
import WolMonkey.Model.Migrations
import WolMonkey.Storage.Renaming
import WolMonkey.Setup.Ordering
import WolMonkey.Machines.Validation
import WolMonkey.Facts.Transactions
import WolMonkey.Storage.AllOrNothing
import WolMonkey.Facts.Undisturbed
import WolMonkey.Wake.Agreement
import WolMonkey.Facts.Outsiders
import WolMonkey.Facts.Interleaving
import WolMonkey.Access.Unauthenticated
import WolMonkey.Library.Ledger
import WolMonkey.Facts.Answers
import WolMonkey.Facts.Credentials
import WolMonkey.Access.Bookkeeping
import WolMonkey.Access.Authentication
import WolMonkey.Library.ClaimBoard
import WolMonkey.Model.Packets
import WolMonkey.Wake.MagicPacket
import WolMonkey.Machines.MacAddress
import WolMonkey.Access.LimiterHistory
import WolMonkey.Machines.Rejection
import WolMonkey.Library.TimedTokens
import WolMonkey.Access.CsrfTokens
import WolMonkey.Library.Polling
import WolMonkey.Wake.EnsureOnline
import WolMonkey.Facts.Forms
import WolMonkey.Setup.AccountPolicy
import WolMonkey.Setup.DeadEnd
import WolMonkey.Facts.Driving
import WolMonkey.Wake.Coherence
import WolMonkey.Host.Ipv4
import WolMonkey.Host.Routes
import WolMonkey.Host.Leaves
import WolMonkey.Host.Interfaces
import WolMonkey.Host.Neighbours
import WolMonkey.Host.Malformed
import WolMonkey.Setup.Navigation
import WolMonkey.Storage.Rollback
import WolMonkey.Wake.Enqueueing
import WolMonkey.Facts.Recording
import WolMonkey.Wake.Strategy
import WolMonkey.Facts.Obedience
import WolMonkey.Facts.Queueing
import WolMonkey.Wake.Posts
import WolMonkey.Wake.QueueContract
import WolMonkey.Facts.Guarding
import WolMonkey.Facts.Moments
import WolMonkey.Access.Mediation
import WolMonkey.Facts.Provenance
import WolMonkey.Wake.Packets
