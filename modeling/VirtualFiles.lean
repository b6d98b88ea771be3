import VirtualFiles.Awb
import VirtualFiles.Bisection
import VirtualFiles.Bytes
import VirtualFiles.Cache.Basic
import VirtualFiles.Cache.Clients
import VirtualFiles.Cache.Key
import VirtualFiles.CommandLine.Argument
import VirtualFiles.CommandLine.BlockSpec
import VirtualFiles.CommandLine.Command
import VirtualFiles.CommandLine.Draft
import VirtualFiles.CommandLine.Failure
import VirtualFiles.CommandLine.Listing
import VirtualFiles.CommandLine.Number
import VirtualFiles.CommandLine.Reading
import VirtualFiles.CommandLine.Run
import VirtualFiles.CommandLine.Word
import VirtualFiles.Dump
import VirtualFiles.Emulator.Basic
import VirtualFiles.Emulator.Host
import VirtualFiles.Emulator.Request
import VirtualFiles.Emulator.Script
import VirtualFiles.Extent
import VirtualFiles.FileSystem.Basic
import VirtualFiles.FileSystem.BufferedWriter
import VirtualFiles.FileSystem.FileCursor
import VirtualFiles.FileSystem.Operations
import VirtualFiles.IoError
import VirtualFiles.Layout.Open
import VirtualFiles.Layout.Plan
import VirtualFiles.Main
import VirtualFiles.Pak.File
import VirtualFiles.Pak.Header
import VirtualFiles.Path
import VirtualFiles.Seekable.Basic
import VirtualFiles.Seekable.Scheduled
import VirtualFiles.Segment
import VirtualFiles.Source.Basic
import VirtualFiles.Source.FileWindow
import VirtualFiles.Source.Memory
import VirtualFiles.Source.Padding
import VirtualFiles.Source.Partial
import VirtualFiles.Source.Pointer
import VirtualFiles.Text.Blank
import VirtualFiles.Text.CaseTable
import VirtualFiles.Text.CodeRange
import VirtualFiles.Text.Hex
import VirtualFiles.Text.Lowercase
import VirtualFiles.Text.PrintTable
import VirtualFiles.Text.Quoted
import VirtualFiles.Text.Record
import VirtualFiles.Text.Utf8
import VirtualFiles.VirtualFile
import VirtualFiles.VirtualStream.Basic
import VirtualFiles.VirtualStream.Cursor
import VirtualFiles.VirtualStream.Cursors
import VirtualFiles.Proofs.Source.Delivery
import VirtualFiles.Proofs.VirtualStream.Reading
import VirtualFiles.Proofs.Layout.Placement
import VirtualFiles.Proofs.Layout.Contents
import VirtualFiles.Proofs.Layout.Opening
import VirtualFiles.Proofs.Cache.Actions
import VirtualFiles.Proofs.Cache.Ended
import VirtualFiles.Proofs.Cache.History
import VirtualFiles.Proofs.Cache.Isolation
import VirtualFiles.Proofs.Cache.SingleFlight
import VirtualFiles.Proofs.VirtualStream.Moving
import VirtualFiles.Proofs.VirtualStream.Advancing
import VirtualFiles.Proofs.VirtualStream.Recognition
import VirtualFiles.Proofs.VirtualStream.ByteCursor
import VirtualFiles.Proofs.Source.Checked
import VirtualFiles.Proofs.VirtualStream.Dispatch
import VirtualFiles.Proofs.VirtualStream.Pieces
import VirtualFiles.Proofs.VirtualStream.Flattening
import VirtualFiles.Proofs.Source.Splitting
import VirtualFiles.Proofs.VirtualStream.Splitting
import VirtualFiles.Proofs.FileSystem.Growth
import VirtualFiles.Proofs.FileSystem.Writing
import VirtualFiles.Proofs.Dump.Copying
import VirtualFiles.Proofs.Dump.Contents
import VirtualFiles.Proofs.Dump.Overwriting
import VirtualFiles.Proofs.CommandLine.Compose
import VirtualFiles.Proofs.Emulator.Creating
import VirtualFiles.Proofs.Emulator.Shelf
import VirtualFiles.Proofs.Emulator.Completion
import VirtualFiles.Proofs.Emulator.Recursion
import VirtualFiles.Proofs.Dump.Agreement
import VirtualFiles.Proofs.Dump.Chunking
import VirtualFiles.Proofs.FileSystem.Additions
import VirtualFiles.Proofs.Dump.Confinement
import VirtualFiles.Proofs.CommandLine.Footprint
import VirtualFiles.Proofs.Emulator.DumpDirectory
import VirtualFiles.Proofs.Emulator.Copies
import VirtualFiles.Proofs.Extent.Consecutive
import VirtualFiles.Proofs.VirtualStream.Assembly
import VirtualFiles.Proofs.Layout.Shape
import VirtualFiles.Proofs.Layout.Rebasing
import VirtualFiles.Proofs.Layout.Refusal
import VirtualFiles.Proofs.Source.Clipping
import VirtualFiles.Proofs.Text.Sequences
import VirtualFiles.Proofs.Text.Chunks
import VirtualFiles.Proofs.Text.Lowering
import VirtualFiles.Proofs.Text.WordEnds
import VirtualFiles.Proofs.Cache.Spelling
import VirtualFiles.Proofs.Emulator.Accepting
import VirtualFiles.Proofs.Pak.Encoding
import VirtualFiles.Proofs.Pak.Decoding
import VirtualFiles.Proofs.Seekable.Restoring
import VirtualFiles.Proofs.Seekable.Schedules
import VirtualFiles.Proofs.CommandLine.Numerals
import VirtualFiles.Proofs.CommandLine.BlockTexts
import VirtualFiles.Proofs.Cache.Generations
import VirtualFiles.Proofs.VirtualStream.Searching
import VirtualFiles.Proofs.Source.ExactReads
