import DocIndex.Comment
import DocIndex.Condition.Branch
import DocIndex.Condition.Directive
import DocIndex.Condition.Element
import DocIndex.Declaration.Attribute
import DocIndex.Declaration.Basic
import DocIndex.Declaration.Generic
import DocIndex.Declaration.Json
import DocIndex.Declaration.Parameter
import DocIndex.Declaration.Signature
import DocIndex.Digest.Md5
import DocIndex.Extract.Callable
import DocIndex.Extract.EnumerationCase
import DocIndex.Extract.Heading
import DocIndex.Extract.Import
import DocIndex.Extract.PrecedenceGroup
import DocIndex.Extract.Property
import DocIndex.Extract.Reading
import DocIndex.Extract.Type
import DocIndex.Files.FileSystem
import DocIndex.Files.Ignore
import DocIndex.Files.Path
import DocIndex.Files.Volume
import DocIndex.Index.Module
import DocIndex.Index.SourceFile
import DocIndex.Index.Walk
import DocIndex.Json.Pretty
import DocIndex.Json.Reader
import DocIndex.Json.Record
import DocIndex.Json.Value
import DocIndex.Location
import DocIndex.Markup.Body
import DocIndex.Markup.Bullet
import DocIndex.Markup.Documentation
import DocIndex.Markup.Reader
import DocIndex.Proofs.Comment.Run
import DocIndex.Proofs.Comment.Scope
import DocIndex.Proofs.Condition.Enclosing
import DocIndex.Proofs.Condition.Keyword
import DocIndex.Proofs.Condition.Map
import DocIndex.Proofs.Condition.Rebuilt
import DocIndex.Proofs.Condition.Together
import DocIndex.Proofs.Condition.Written
import DocIndex.Proofs.Declaration.Attribute
import DocIndex.Proofs.Declaration.Json
import DocIndex.Proofs.Declaration.Parameter
import DocIndex.Proofs.Declaration.Requirement
import DocIndex.Proofs.Declaration.SingleLine
import DocIndex.Proofs.Extract.Effects
import DocIndex.Proofs.Extract.Marks
import DocIndex.Proofs.Extract.Parameters
import DocIndex.Proofs.Extract.Properties
import DocIndex.Proofs.Extract.Reading
import DocIndex.Proofs.Extract.SingleLine
import DocIndex.Proofs.Files.Path
import DocIndex.Proofs.Files.Volume
import DocIndex.Proofs.Index.Balance
import DocIndex.Proofs.Index.Contents
import DocIndex.Proofs.Index.Dialects
import DocIndex.Proofs.Index.Found
import DocIndex.Proofs.Index.Identity
import DocIndex.Proofs.Index.Module
import DocIndex.Proofs.Index.SourceFile
import DocIndex.Proofs.Index.Spelling
import DocIndex.Proofs.Index.Unconditional
import DocIndex.Proofs.Index.Visit
import DocIndex.Proofs.Json.Layout
import DocIndex.Proofs.Json.Record
import DocIndex.Proofs.Json.Reread
import DocIndex.Proofs.Location
import DocIndex.Proofs.Markup.Account
import DocIndex.Proofs.Markup.Article
import DocIndex.Proofs.Markup.Dedent
import DocIndex.Proofs.Markup.Fence
import DocIndex.Proofs.Markup.Label
import DocIndex.Proofs.Markup.Layout
import DocIndex.Proofs.Markup.LineComment
import DocIndex.Proofs.Markup.Nested
import DocIndex.Proofs.Markup.Parameters
import DocIndex.Proofs.Markup.Recent
import DocIndex.Proofs.Markup.Reread
import DocIndex.Proofs.Markup.Silent
import DocIndex.Proofs.Symbol.Derived
import DocIndex.Proofs.Symbol.Json
import DocIndex.Proofs.Text.Balanced
import DocIndex.Proofs.Text.Boundary
import DocIndex.Proofs.Text.ByteOrder
import DocIndex.Proofs.Text.Flat
import DocIndex.Proofs.Text.Nesting
import DocIndex.Proofs.Text.Piece
import DocIndex.Proofs.Text.Trimmed
import DocIndex.Proofs.Text.Words
import DocIndex.Proofs.Tree.Descent
import DocIndex.Proofs.Tree.Fault
import DocIndex.Symbol.Basic
import DocIndex.Symbol.Frame
import DocIndex.Symbol.Json
import DocIndex.Text.Blank
import DocIndex.Text.Bytes
import DocIndex.Text.Character
import DocIndex.Text.Cut
import DocIndex.Text.Line
import DocIndex.Text.Nesting
import DocIndex.Tree.Fault
import DocIndex.Tree.Kind
import DocIndex.Tree.Node
