import ManifestCV.Foundation.Sha256
import ManifestCV.Foundation.FloatNumeral
import ManifestCV.Foundation.PdfFile
import ManifestCV.Foundation.Transactions
import ManifestCV.Document.Canonical
import ManifestCV.Document.Markdown
import ManifestCV.Render.Lines
import ManifestCV.Render.Paginate
import ManifestCV.Render.PageStream
import ManifestCV.Render.Provenance
import ManifestCV.Render.ObjectGraph
import ManifestCV.Document.Generated
import ManifestCV.Document.Templates
import ManifestCV.Workspace.Handlers
import ManifestCV.Workspace.Transitions
import ManifestCV.Workspace.Commits
import ManifestCV.Workspace.History
import ManifestCV.Workspace.Approval
import ManifestCV.Workspace.Rewriting
import ManifestCV.Workspace.Numbering
import ManifestCV.Workspace.Exclusive
import ManifestCV.Workspace.Validity
import ManifestCV.Knowledge.Points
import ManifestCV.Knowledge.Requests
import ManifestCV.Knowledge.Sessions
import ManifestCV.Knowledge.Sync
import ManifestCV.Editor.Page
import ManifestCV.Editor.Edits
import ManifestCV.Editor.Settling
import ManifestCV.Editor.Operations
import ManifestCV.Editor.Layout
import ManifestCV.Editor.Arrangement
import ManifestCV.Editor.Limits
import ManifestCV.Foundation.Facts
import ManifestCV.Workspace.Facts
import ManifestCV.Workspace.Queries
import ManifestCV.Workspace.Artifacts
import ManifestCV.Workspace.Snapshots
import ManifestCV.Workspace.Isolation
import ManifestCV.Workspace.JobCalls
import ManifestCV.Workspace.Queueing
import ManifestCV.Foundation.Markup
import ManifestCV.Foundation.Splitting
import ManifestCV.Render.Html
import ManifestCV.Render.Escaping
import ManifestCV.Render.Placement
import ManifestCV.Render.Preview
import ManifestCV.Render.Storing
import ManifestCV.Document.Coverage
import ManifestCV.Render.Repeats
import ManifestCV.Document.Acceptance
import ManifestCV.Knowledge.Retrieval
import ManifestCV.Knowledge.Views
import ManifestCV.Knowledge.Versions
import ManifestCV.Knowledge.Users
import ManifestCV.Editor.Proposals
import ManifestCV.Workspace.Filing
import ManifestCV.Workspace.Exports
import ManifestCV.Foundation.Sizes
import ManifestCV.Render.Crowded
import ManifestCV.Workspace.Oversize
import ManifestCV.Latex.Lists
import ManifestCV.Document.Stability
import ManifestCV.Document.Headings
import ManifestCV.Knowledge.Chunks
import ManifestCV.Knowledge.BestEffort
import ManifestCV.Render.ByteTables
import ManifestCV.Render.BlankPages
import ManifestCV.Render.StreamTokens
import ManifestCV.Render.Iterations
import ManifestCV.Editor.UndoRedo
import ManifestCV.Workspace.Listing
import ManifestCV.Document.LinkFilter
import ManifestCV.Latex.Words
import ManifestCV.Workspace.Updates
import ManifestCV.Knowledge.Typing
import ManifestCV.Workspace.Restoring
import ManifestCV.Render.Glyphs
import ManifestCV.Workspace.Progress
import ManifestCV.Workspace.Shelf
import ManifestCV.Auth.Succession
import ManifestCV.Auth.CrossTab
import ManifestCV.Authorization.Escalation
import ManifestCV.Authorization.Bulk
import ManifestCV.Authorization.History
