import DiagramService.Diagram.IdSource
import DiagramService.Diagram.Caller
import DiagramService.Diagram.Files
import DiagramService.Request
import DiagramService.Json.Value
import DiagramService.Yaml.Document
import DiagramService.Config.Environment
import DiagramService.Disk.Operation
import DiagramService.Shell.Reader
import DiagramService.Shell.Pattern
import DiagramService.Shell.Program
import DiagramService.Shell.Tool
import DiagramService.Shell.Group
import DiagramService.Render.Rendering
import DiagramService.Render.Supervision
import DiagramService.Render.Course
import DiagramService.Store.Save
import DiagramService.Store.Listing
import DiagramService.Http.Route
import DiagramService.Service.Running
import DiagramService.CommandLine.Run
import DiagramService.Main
import DiagramService.Proofs.Text.Decimal
import DiagramService.Proofs.Text.Utf8
import DiagramService.Proofs.Yaml.Nesting
import DiagramService.Proofs.Config.Settings
import DiagramService.Proofs.Config.Precedence
import DiagramService.Proofs.Disk.Leads
import DiagramService.Proofs.Disk.Effect
import DiagramService.Proofs.Disk.Frame
import DiagramService.Proofs.Disk.Gone
import DiagramService.Proofs.Disk.Paved
import DiagramService.Proofs.Disk.Descent
import DiagramService.Proofs.Disk.Same
import DiagramService.Proofs.Diagram.Files
import DiagramService.Proofs.Diagram.IdSource
import DiagramService.Proofs.Render.Invocation
import DiagramService.Proofs.Render.Scratch
import DiagramService.Proofs.Render.Stage
import DiagramService.Proofs.Render.Printing
import DiagramService.Proofs.Render.Traceless
import DiagramService.Proofs.Render.Verdict
import DiagramService.Proofs.Store.Save
import DiagramService.Proofs.Store.Failure
import DiagramService.Proofs.Store.Claimed
import DiagramService.Proofs.Http.Answer
import DiagramService.Proofs.Http.Confined
import DiagramService.Proofs.Http.SavedFiles
import DiagramService.Proofs.Service.World
import DiagramService.Proofs.Service.Ledger
import DiagramService.Proofs.Service.Schedule
import DiagramService.Proofs.Service.Tended
import DiagramService.Proofs.Service.OneStore
import DiagramService.Proofs.Service.Drawn
import DiagramService.Proofs.Service.Pictures
import DiagramService.Proofs.Service.KeptRecords
import DiagramService.Proofs.Service.SharedDirectory
import DiagramService.Proofs.Service.SaveAnswer
import DiagramService.Proofs.Service.WorkDir
import DiagramService.Proofs.Service.Isolation
import DiagramService.Proofs.Service.AppendOnly
import DiagramService.Proofs.Service.Agreement
import DiagramService.Proofs.Service.Marks
import DiagramService.Proofs.Service.SoleStore
import DiagramService.Proofs.Service.ListedRecords
import DiagramService.Proofs.Service.Bookkeeping
import DiagramService.Proofs.Service.ListedSaves
import DiagramService.Proofs.Service.Refusal
import DiagramService.Proofs.Service.Secrecy
import DiagramService.Proofs.Service.Scene
import DiagramService.Proofs.Service.Clearing
import DiagramService.Proofs.Service.Housing
import DiagramService.Proofs.Service.Aftermath
import DiagramService.Proofs.Service.Inventory
import DiagramService.Proofs.Service.Archive
import DiagramService.Proofs.Service.AtOnce
import DiagramService.Proofs.Service.ShellRules
import DiagramService.Proofs.Service.Rounds
import DiagramService.Proofs.Service.InProgress
import DiagramService.Proofs.CommandLine.Parity
import DiagramService.Proofs.Diagram.SourceNames
import DiagramService.Proofs.Store.Catalogue
import DiagramService.Proofs.Store.FirstFree
import DiagramService.Proofs.Http.Sharing
import DiagramService.Proofs.Service.CrossOrigin
import DiagramService.Proofs.Diagram.IssuedIds
import DiagramService.Proofs.Diagram.SharedSource
import DiagramService.Proofs.Disk.Slot
import DiagramService.Proofs.Render.Leftovers
import DiagramService.Proofs.Render.Course
import DiagramService.Proofs.Shell.Watch
import DiagramService.Proofs.Disk.Trail
import DiagramService.Proofs.Disk.LastName
import DiagramService.Proofs.Diagram.ImagePath
import DiagramService.Proofs.Render.Handover
import DiagramService.Proofs.CommandLine.Output
import DiagramService.Proofs.Service.OneDirectory
import DiagramService.Proofs.Json.Literal
import DiagramService.Proofs.Json.Spelling
import DiagramService.Proofs.Request.OneText
import DiagramService.Proofs.Request.AnyText
import DiagramService.Proofs.Yaml.Tree
import DiagramService.Proofs.Config.Fields
import DiagramService.Proofs.Config.WholeFile
import DiagramService.Proofs.Config.Overrides
import DiagramService.Proofs.Http.ErrorBody
import DiagramService.Proofs.Render.Limit
import DiagramService.Proofs.Path.Parts
import DiagramService.Proofs.Store.RecordPaths
import DiagramService.Proofs.Diagram.ImageLaws
import DiagramService.Proofs.Store.Operations
import DiagramService.Proofs.Service.Mirror
import DiagramService.Proofs.Render.Custody
import DiagramService.Proofs.Request.Trimming
