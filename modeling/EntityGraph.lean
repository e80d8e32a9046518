import EntityGraph.Main
import EntityGraph.Http.Router
import EntityGraph.Sql.Store
import EntityGraph.Proofs.ArgumentNames
import EntityGraph.Proofs.Completeness
import EntityGraph.Proofs.KeyBatches
import EntityGraph.Proofs.Keys
import EntityGraph.Proofs.KeyedCalls
import EntityGraph.Proofs.NestedRead
import EntityGraph.Proofs.ThreeValued
import EntityGraph.Proofs.ThroughLists
import EntityGraph.Proofs.ExactPlans
import EntityGraph.Proofs.HookedOperations
import EntityGraph.Proofs.RootFields
import EntityGraph.Proofs.DocumentNames
import EntityGraph.Proofs.RootAnswers
import EntityGraph.Proofs.StepwiseCalls
import EntityGraph.Proofs.FailedRequests
import EntityGraph.Proofs.IssuedStatements
import EntityGraph.Proofs.AlikeCalls
import EntityGraph.Proofs.Pages
import EntityGraph.Proofs.DocumentText
import EntityGraph.Proofs.WrittenDocument
import EntityGraph.Proofs.CamelCase
import EntityGraph.Proofs.LevelIsolation
import EntityGraph.Proofs.LongestSuffix
import EntityGraph.Proofs.AcceptedEntities
import EntityGraph.Proofs.RootResolvers
import EntityGraph.Proofs.ObjectFields
import EntityGraph.Proofs.FreshKeys
import EntityGraph.Proofs.LevelQueries
import EntityGraph.Proofs.StoredValues
import EntityGraph.Proofs.JoinKeys
import EntityGraph.Proofs.ValueKinds
import EntityGraph.Proofs.FlatReads
import EntityGraph.Proofs.BoundValues
import EntityGraph.Proofs.ResolverPrecedence
import EntityGraph.Proofs.RegisteredTypes
import EntityGraph.Proofs.ArgumentOrder
import EntityGraph.Proofs.NearestKeys
import EntityGraph.Proofs.KeyArguments
import EntityGraph.Proofs.CountedKeys
import EntityGraph.Proofs.FilterLaws
import EntityGraph.Proofs.BoundLimit
